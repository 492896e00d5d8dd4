import XplEvent.Service.Dispatch

/-!
# Delivery to a single service

What a service should hear depends on its report mode: everything, its own
messages, configuration messages, or in the normal mode the broadcasts of
others, enabled group messages and the messages targeted at it. The
dispatcher calls the listener inside the test for a message that the mode
alone does not report, so that in the first two modes a message the mode
asks for is never delivered. `deliversByMode_iff` says what is left.
-/

namespace XplEvent.Service

open Wire

/-- The message comes from the service itself. -/
def IsOwn (xm : XplMessage) (cse : XplService) : Prop :=
  xm.sourceVendor = some cse.serviceVendor ∧ xm.sourceDeviceID = some cse.serviceDeviceID ∧
    xm.sourceInstanceID = some cse.serviceInstanceID

/-- The message is targeted at the service. -/
def IsTarget (xm : XplMessage) (cse : XplService) : Prop :=
  xm.targetVendor = some cse.serviceVendor ∧ xm.targetDeviceID = some cse.serviceDeviceID ∧
    xm.targetInstanceID = some cse.serviceInstanceID

/-- What a service hears in the normal mode. -/
def HeardInNormalMode (xm : XplMessage) (cse : XplService) : Prop :=
  (xm.isBroadcastMessage = true ∧ ¬ IsOwn xm cse) ∨
  (xm.isBroadcastMessage = false ∧ classOf xm = .XPL_MSG_CLASS_GROUP ∧
    cse.reportGroupMessages = true) ∨
  (xm.isBroadcastMessage = false ∧ classOf xm ≠ .XPL_MSG_CLASS_GROUP ∧ IsTarget xm cse)

/-- The calls made for a message. A turn that fails does so before its
call, and every later turn has failed with it. -/
def listenerCalls (xm : XplMessage) (servHead : List XplService) : List ListenerCall :=
  match dispatch xm servHead with
  | .error _ => []
  | .ok outcomes => outcomes.filterMap (·.2)

/-- The listener of a single service is called as its report mode asks. -/
structure DeliversByMode (xm : XplMessage) (cse : XplService) : Prop where
  everything : cse.reportMode = .XPL_REPORT_EVERYTHING → (listenerCalls xm [cse]).length = 1
  own : cse.reportMode = .XPL_REPORT_OWN_MESSAGES → IsOwn xm cse →
    (listenerCalls xm [cse]).length = 1
  normal : cse.reportMode = .XPL_REPORT_MODE_NORMAL →
    (HeardInNormalMode xm cse → (listenerCalls xm [cse]).length = 1) ∧
    (¬ HeardInNormalMode xm cse → (listenerCalls xm [cse]).length = 0)
  config : cse.reportMode = .XPL_REPORT_CONFIG_MESSAGES_ONLY →
    (classOf xm = .XPL_MSG_CLASS_CONFIG → (listenerCalls xm [cse]).length = 1) ∧
    (classOf xm ≠ .XPL_MSG_CLASS_CONFIG → (listenerCalls xm [cse]).length = 0)

/-! ## The decision -/

theorem matchCount_iff {cse : XplService} {vendor deviceID instanceID : Option CString} :
    matchCount cse vendor deviceID instanceID ≥ 3 ↔ vendor = some cse.serviceVendor ∧
      deviceID = some cse.serviceDeviceID ∧ instanceID = some cse.serviceInstanceID := by
  unfold matchCount
  by_cases hv : vendor = some cse.serviceVendor
  · by_cases hd : deviceID = some cse.serviceDeviceID
    · by_cases hi : instanceID = some cse.serviceInstanceID
      · simp [hv, hd, hi]
      · simp [hv, hd, hi]
    · simp only [hd, if_false, false_and, and_false, iff_false]
      split <;> split <;> omega
  · simp only [hv, if_false, false_and, iff_false]
    split <;> split <;> omega

theorem heard_isUs (xm : XplMessage) (cse : XplService) :
    (heard xm cse).isUs = true ↔ IsOwn xm cse := by
  rw [heard, testIsUs, decide_eq_true_iff]
  exact matchCount_iff

theorem matchTarget_iff (xm : XplMessage) (cse : XplService) :
    matchTarget xm cse = true ↔ IsTarget xm cse := by
  unfold matchTarget
  by_cases hset : xm.targetDeviceID.isSome ∧ xm.targetVendor.isSome ∧ xm.targetInstanceID.isSome
  · rw [if_pos hset, decide_eq_true_iff]
    exact matchCount_iff
  · rw [if_neg hset]
    refine iff_of_false Bool.false_ne_true ?_
    rintro ⟨hv, hd, hi⟩
    refine hset ?_
    rw [hv, hd, hi]
    exact ⟨rfl, rfl, rfl⟩

theorem matchMessage_iff (xm : XplMessage) (cse : XplService) :
    matchMessage (heard xm cse) (served xm cse) = true ↔ HeardInNormalMode xm cse := by
  obtain ⟨discoveryState, heartbeatTimer, hserved⟩ := served_frame xm cse
  have hus := heard_isUs xm cse
  have htarget : matchTarget (heard xm cse) (served xm cse) = true ↔ IsTarget xm cse := by
    rw [matchTarget_iff, hserved]
    exact Iff.rfl
  have hgroup : (served xm cse).reportGroupMessages = cse.reportGroupMessages := by
    rw [hserved]
  unfold matchMessage HeardInNormalMode
  rw [show (heard xm cse).isBroadcastMessage = xm.isBroadcastMessage from rfl,
    show (heard xm cse).messageClass = classOf xm from rfl, hgroup]
  cases xm.isBroadcastMessage with
  | true =>
    simp only [if_true, Bool.not_eq_true', ← hus, Bool.not_eq_true, true_and, Bool.true_eq_false,
      false_and, or_false]
  | false =>
    by_cases hg : classOf xm = .XPL_MSG_CLASS_GROUP
    · simp only [Bool.false_eq_true, if_false, hg, if_true, false_and, true_and, false_or, ne_eq,
        not_true_eq_false, and_false, or_false]
    · simp only [Bool.false_eq_true, if_false, hg, htarget, false_and, and_false, true_and, false_or,
        ne_eq, not_false_eq_true]

theorem served_reportMode (xm : XplMessage) (cse : XplService) :
    (served xm cse).reportMode = cse.reportMode := by
  obtain ⟨discoveryState, heartbeatTimer, hserved⟩ := served_frame xm cse
  rw [hserved]

theorem served_listener (xm : XplMessage) (cse : XplService) :
    (served xm cse).listener = cse.listener := by
  obtain ⟨discoveryState, heartbeatTimer, hserved⟩ := served_frame xm cse
  rw [hserved]

/-- The dispatcher decides to call the service's listener. -/
def CalledInTurn (xm : XplMessage) (cse : XplService) : Prop :=
  match cse.reportMode with
  | .XPL_REPORT_MODE_NORMAL => HeardInNormalMode xm cse
  | .XPL_REPORT_OWN_MESSAGES => ¬ IsOwn xm cse ∧ HeardInNormalMode xm cse
  | .XPL_REPORT_EVERYTHING => False
  | .XPL_REPORT_CONFIG_MESSAGES_ONLY => classOf xm = .XPL_MSG_CLASS_CONFIG

theorem decideReport_callit (xm : XplMessage) (cse : XplService) :
    decideReport (heard xm cse) (served xm cse) = .callit ↔ CalledInTurn xm cse := by
  unfold CalledInTurn
  unfold decideReport
  rw [served_reportMode, show (heard xm cse).messageClass = classOf xm from rfl]
  have hmatch := matchMessage_iff xm cse
  have hus := heard_isUs xm cse
  cases cse.reportMode with
  | XPL_REPORT_MODE_NORMAL => grind [modeReports]
  | XPL_REPORT_OWN_MESSAGES => grind [modeReports]
  | XPL_REPORT_EVERYTHING => simp [modeReports]
  | XPL_REPORT_CONFIG_MESSAGES_ONLY => grind

/-! ## The exact condition -/

/-- The number of calls made to a single service that has a listener. -/
theorem listenerCalls_single {xm : XplMessage} (h : xm.WellFormed) {cse : XplService}
    (hl : cse.listener.isSome = true) : (listenerCalls xm [cse]).length =
      if ¬ RequestWithoutCommand xm ∧ decideReport (heard xm cse) (served xm cse) = .callit
      then 1 else 0 := by
  obtain ⟨listener, hlistener⟩ := Option.isSome_iff_exists.mp hl
  unfold listenerCalls
  by_cases hk : RequestWithoutCommand xm
  · rw [dispatch_fault h hk, if_neg fun hr => hr.1 hk]
    rfl
  · have houtcomes : dispatch xm [cse] = .ok [(turnOf xm cse).1] := by
      rw [dispatch_eq h hk, Lib.outcomes, Lib.outcomes]
      split
      · rfl
      · rfl
    rw [houtcomes]
    simp only [List.filterMap_cons, List.filterMap_nil, turnOf_call, callListener, served_listener,
      hlistener, Option.map_some, hk, not_false_eq_true, true_and]
    by_cases hv : decideReport (heard xm cse) (served xm cse) = .callit
    · simp only [if_pos hv, List.length_cons, List.length_nil]
    · simp only [if_neg hv, List.length_nil]

/-- **A message is delivered to a single service as its report mode asks
exactly when** the mode is not the one for everything, it is not the one
for its own messages and the message one of them, and no heartbeat request
without a command is due in the normal mode. -/
theorem deliversByMode_iff {theText : CString} {xm : XplMessage}
    (h : parseMessage theText = .ok (some xm)) {cse : XplService}
    (hl : cse.listener.isSome = true) : DeliversByMode xm cse ↔
      cse.reportMode ≠ .XPL_REPORT_EVERYTHING ∧
      ¬ (cse.reportMode = .XPL_REPORT_OWN_MESSAGES ∧ IsOwn xm cse) ∧
      ¬ (cse.reportMode = .XPL_REPORT_MODE_NORMAL ∧ RequestWithoutCommand xm ∧
        HeardInNormalMode xm cse) := by
  have hcalls := listenerCalls_single (parseMessage_wellFormed h) hl
  have hcallit := decideReport_callit xm cse
  unfold CalledInTurn at hcallit
  have hconfig : RequestWithoutCommand xm → classOf xm ≠ .XPL_MSG_CLASS_CONFIG := by
    intro hk
    rw [classOf_request hk.1]
    decide
  constructor
  · rintro ⟨heverything, hown, hnormal, -⟩
    refine ⟨fun hm => ?_, fun ⟨hm, how⟩ => ?_, fun ⟨hm, hk, hheard⟩ => ?_⟩
    · have hone := heverything hm
      rw [hm] at hcallit
      rw [hcalls, if_neg fun hr => hcallit.mp hr.2] at hone
      cases hone
    · have hone := hown hm how
      rw [hm] at hcallit
      rw [hcalls, if_neg fun hr => (hcallit.mp hr.2).1 how] at hone
      cases hone
    · have hone := (hnormal hm).1 hheard
      rw [hcalls, if_neg fun hr => hr.1 hk] at hone
      cases hone
  · rintro ⟨heverything, hown, hnormal⟩
    refine ⟨fun hm => absurd hm heverything, fun hm how => absurd ⟨hm, how⟩ hown, fun hm => ?_,
      fun hm => ?_⟩
    · rw [hm] at hcallit
      refine ⟨fun hheard => ?_, fun hheard => ?_⟩
      · rw [hcalls, if_pos ⟨fun hk => hnormal ⟨hm, hk, hheard⟩, hcallit.mpr hheard⟩]
      · rw [hcalls, if_neg fun hr => hheard (hcallit.mp hr.2)]
    · rw [hm] at hcallit
      refine ⟨fun hclass => ?_, fun hclass => ?_⟩
      · rw [hcalls, if_pos ⟨fun hk => hconfig hk hclass, hcallit.mpr hclass⟩]
      · rw [hcalls, if_neg fun hr => hclass (hcallit.mp hr.2)]

/-- A broadcast without pairs. -/
def sampleText : CString :=
  cstr "xpl-trig\n\x7b\nhop=1\nsource=a-b.c\ntarget=*\n\x7d\nx.y\n\x7b\n\x7d\n"

/-- The message of `sampleText`. -/
def sampleMessage : XplMessage :=
  { createReceivedMessage .XPL_MESSAGE_TRIGGER with
    hopCount := 1
    sourceVendor := some (cstr "a")
    sourceDeviceID := some (cstr "b")
    sourceInstanceID := some (cstr "c")
    isBroadcastMessage := true
    schemaClass := some (cstr "x")
    schemaType := some (cstr "y") }

theorem parseMessage_sampleText : parseMessage sampleText = .ok (some sampleMessage) := by
  rfl

/-- A service `v-d.i` with a listener. -/
def sampleService (reportMode : XPLListenerReportMode) : XplService where
  serviceEnabled := true
  configurableService := false
  serviceConfigured := false
  heartbeatInterval := 300
  heartbeatTimer := 300
  discoveryTries := 1
  discoveryState := .XPL_HUB_CONFIRMED
  reportMode := reportMode
  reportGroupMessages := false
  serviceVendor := cstr "v"
  serviceDeviceID := cstr "d"
  serviceInstanceID := cstr "i"
  serviceVersion := none
  heartbeatMessage := none
  listener := some ⟨0, 0⟩

theorem deliversByMode_sample :
    DeliversByMode sampleMessage (sampleService .XPL_REPORT_MODE_NORMAL) :=
  (deliversByMode_iff parseMessage_sampleText rfl).mpr
    ⟨by decide, fun hm => absurd hm.1 (by decide), fun hm => absurd hm.2.1 (by decide)⟩

/-- A service that asks for everything hears nothing. -/
theorem sampleMessage_not_delivered :
    ¬ ∀ theText xm, parseMessage theText = .ok (some xm) → ∀ cse : XplService,
      cse.listener.isSome = true → DeliversByMode xm cse := by
  intro h
  have hone := (h sampleText sampleMessage parseMessage_sampleText
    (sampleService .XPL_REPORT_EVERYTHING) rfl).everything rfl
  exact absurd hone (by decide)

end XplEvent.Service
