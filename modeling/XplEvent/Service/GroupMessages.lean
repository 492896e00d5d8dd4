import XplEvent.Service.Interference
import XplEvent.Wire.RoundTrip

/-!
# Group messages

A group message is a message targeted at the vendor `xpl`, the device
`group` and the name of the group. The dispatcher does not look there: it
takes a message for a group message whose schema class is `group` and whose
schema type is `xpl`. Sender and receiver agree on the messages of that one
schema.
-/

namespace XplEvent.Service

open Wire

/-! ## Building one -/

/-- `XplInitTargettedMessage`. -/
def XplInitTargettedMessage (xs : XplService) (messageType : XPLMessageType)
    (theVendor theDeviceID theInstanceID : CString) : XplMessage :=
  createTargetedMessage xs messageType theVendor theDeviceID theInstanceID

/-- `XplInitGroupMessage`. -/
def XplInitGroupMessage (xs : XplService) (messageType : XPLMessageType)
    (controlGroup : CString) : XplMessage :=
  XplInitTargettedMessage xs messageType (cstr "xpl") (cstr "group") controlGroup

/-- `XplAddNameValue`. -/
def XplAddNameValue (xm : XplMessage) (theName theValue : CString) : XplMessage :=
  addMessageNamedValue xm theName theValue

/-- A group message with its schema and its pairs. -/
def groupMessage (xs : XplService) (messageType : XPLMessageType)
    (controlGroup theClass theType : CString) (pairs : List (CString × CString)) : XplMessage :=
  pairs.foldl (fun xm p => XplAddNameValue xm p.1 p.2)
    (XplSetMessageClassType (XplInitGroupMessage xs messageType controlGroup) theClass theType)

/-- The listener of the service at place `i` is called for the message. -/
def CalledAt (xm : XplMessage) (servHead : List XplService) (i : Nat) : Prop :=
  ∃ cse call, outcomeAt xm servHead i = .ok (some (cse, some call))

/-- The text is accepted and classified as a group message in the turn of
every service, and of the services in the normal mode those are called that
have a listener and ask for group messages. -/
def ReportedToGroup (theText : CString) (servHead : List XplService) : Prop :=
  ∃ xm, parseMessage theText = .ok (some xm) ∧
    (∀ cse, (serviceTurn xm cse).map (·.1.messageClass) = .ok .XPL_MSG_CLASS_GROUP) ∧
    ∀ (i : Nat) cse, servHead[i]? = some cse → cse.reportMode = .XPL_REPORT_MODE_NORMAL →
      (CalledAt xm servHead i ↔ cse.listener.isSome = true ∧ cse.reportGroupMessages = true)

/-- No service that listens for group messages in the normal mode stands
behind one that asks for configuration messages only. -/
def ClearPath (servHead : List XplService) : Prop :=
  ∀ pre cse post, servHead = pre ++ cse :: post → cse.reportMode = .XPL_REPORT_MODE_NORMAL →
    cse.listener.isSome = true → cse.reportGroupMessages = true →
    ∀ c ∈ pre, c.reportMode ≠ .XPL_REPORT_CONFIG_MESSAGES_ONLY

theorem clearPath_of_forall {servHead : List XplService}
    (h : ∀ c ∈ servHead, c.reportMode ≠ .XPL_REPORT_CONFIG_MESSAGES_ONLY) : ClearPath servHead := by
  rintro pre cse post rfl - - - c hc
  exact h c (List.mem_append_left _ hc)

/-! ## The message that comes back -/

theorem addPairs_eq (xm : XplMessage) (pairs : List (CString × CString)) :
    pairs.foldl (fun xm p => XplAddNameValue xm p.1 p.2) xm =
      { xm with nvList := xm.nvList ++ pairs.map fun p => ⟨0, p.1, some p.2⟩ } := by
  induction pairs generalizing xm with
  | nil =>
    rw [List.map_nil, List.append_nil]
    rfl
  | cons p pairs ih =>
    rw [List.foldl_cons, ih, XplAddNameValue, addMessageNamedValue, List.map_cons,
      List.append_assoc]
    rfl

/-- A group message is targeted, and keeps the schema it was given. -/
theorem groupMessage_received (xs : XplService) (messageType : XPLMessageType)
    (controlGroup theClass theType : CString) (pairs : List (CString × CString)) :
    let xm := (groupMessage xs messageType controlGroup theClass theType pairs).received
    xm.isBroadcastMessage = false ∧ xm.schemaClass = some theClass ∧
      xm.schemaType = some theType := by
  rw [groupMessage, addPairs_eq]
  exact ⟨rfl, rfl, rfl⟩

/-! ## Who is called -/

theorem classOf_group_iff (xm : XplMessage) : classOf xm = .XPL_MSG_CLASS_GROUP ↔
    xm.schemaClass = some (cstr "group") ∧ xm.schemaType = some (cstr "xpl") := by
  have happ : cstr "xpl" ≠ cstr "app" := by decide
  unfold classOf
  constructor
  · intro h
    split at h
    · cases h
    · split at h
      · rename_i hgroup
        exact ⟨hgroup.2, hgroup.1⟩
      · split at h
        · cases h
        · cases h
  · rintro ⟨hclass, htype⟩
    rw [if_neg, if_pos ⟨htype, hclass⟩]
    rintro ⟨hb, -⟩
    exact happ (Option.some.inj (htype.symm.trans hb))

/-- A service in the normal mode is called for a group message if its turn
comes, it has a listener and it asks for group messages. -/
theorem calledAt_iff {xm : XplMessage} (h : xm.WellFormed) (hb : xm.isBroadcastMessage = false)
    (hg : classOf xm = .XPL_MSG_CLASS_GROUP) {pre post : List XplService} {cse : XplService}
    (hmode : cse.reportMode = .XPL_REPORT_MODE_NORMAL) :
    CalledAt xm (pre ++ cse :: post) pre.length ↔
      GoesOn xm pre ∧ cse.listener.isSome = true ∧ cse.reportGroupMessages = true := by
  have hk : ¬ RequestWithoutCommand xm := by
    intro hk
    rw [classOf_request hk.1] at hg
    cases hg
  have hheard : HeardInNormalMode xm cse ↔ cse.reportGroupMessages = true := by
    simp only [HeardInNormalMode, hb, hg, Bool.false_eq_true, false_and, true_and, false_or, ne_eq,
      not_true_eq_false, or_false]
  have hcallit : decideReport (heard xm cse) (served xm cse) = .callit ↔
      cse.reportGroupMessages = true := by
    have hturn := decideReport_callit xm cse
    rw [CalledInTurn, hmode] at hturn
    exact hturn.trans hheard
  have hcall : (turnOf xm cse).1.2.isSome = true ↔
      cse.listener.isSome = true ∧ cse.reportGroupMessages = true := by
    rw [turnOf_call, callListener, served_listener]
    by_cases hreport : cse.reportGroupMessages = true
    · rw [if_pos (hcallit.mpr hreport), Option.isSome_map]
      exact (and_iff_left hreport).symm
    · rw [if_neg (mt hcallit.mp hreport)]
      exact iff_of_false Bool.false_ne_true fun hboth => hreport hboth.2
  rw [CalledAt, outcomeAt_eq h hk, ← hcall, ← all_go_on_iff]
  constructor
  · rintro ⟨served, call, hout⟩
    have hout := Option.some.inj (Except.ok.inj hout)
    split at hout
    · rename_i hall
      refine ⟨hall, ?_⟩
      rw [hout]
      rfl
    · cases hout
  · rintro ⟨hall, hsome⟩
    obtain ⟨call, hcall⟩ := Option.isSome_iff_exists.mp hsome
    rw [if_pos hall]
    exact ⟨(turnOf xm cse).1.1, call, congrArg _ (congrArg some (Prod.ext rfl hcall))⟩

/-- A group message has the class if its schema is `group.xpl`. -/
theorem classOf_groupMessage (xs : XplService) (messageType : XPLMessageType)
    (controlGroup theClass theType : CString) (pairs : List (CString × CString)) :
    classOf (groupMessage xs messageType controlGroup theClass theType pairs).received =
        .XPL_MSG_CLASS_GROUP ↔ theClass = cstr "group" ∧ theType = cstr "xpl" := by
  obtain ⟨-, hclass, htype⟩ :=
    groupMessage_received xs messageType controlGroup theClass theType pairs
  rw [classOf_group_iff, hclass, htype, Option.some_inj, Option.some_inj]

/-- What is reported to the group is classified as a group message. -/
theorem ReportedToGroup.class {theText : CString} {servHead : List XplService}
    (h : ReportedToGroup theText servHead) {xm : XplMessage}
    (hparse : parseMessage theText = .ok (some xm)) : classOf xm = .XPL_MSG_CLASS_GROUP := by
  obtain ⟨xm', hparse', hturn, -⟩ := h
  have hxm := Option.some.inj (Except.ok.inj (hparse.symm.trans hparse'))
  subst hxm
  have hmine := hturn (sampleService .XPL_REPORT_MODE_NORMAL)
  rw [serviceTurn_eq (parseMessage_wellFormed hparse)] at hmine
  split at hmine
  · cases hmine
  · exact Except.ok.inj hmine

/-- **A group message is recognised and reported to its group exactly
when** its schema is `group.xpl` and no service in the list that asks for
configuration messages only stands in the way. -/
theorem reportedToGroup_iff {xs : XplService} {messageType : XPLMessageType}
    {controlGroup theClass theType : CString} {pairs : List (CString × CString)} {theText : CString}
    (hf : (groupMessage xs messageType controlGroup theClass theType pairs).Fits)
    (h : formatMessage (groupMessage xs messageType controlGroup theClass theType pairs) =
      .ok (some theText)) (servHead : List XplService) :
    ReportedToGroup theText servHead ↔
      (theClass = cstr "group" ∧ theType = cstr "xpl") ∧ ClearPath servHead := by
  have hb := (groupMessage_received xs messageType controlGroup theClass theType pairs).1
  have hparse := parseMessage_formatMessage hf h
  have hwf := parseMessage_wellFormed hparse
  rw [← classOf_groupMessage xs messageType controlGroup theClass theType pairs]
  generalize (groupMessage xs messageType controlGroup theClass theType pairs).received = xm at *
  constructor
  · intro hreported
    have hg := hreported.class hparse
    obtain ⟨xm', hparse', -, hcalled⟩ := hreported
    have hxm := Option.some.inj (Except.ok.inj (hparse.symm.trans hparse'))
    subst hxm
    refine ⟨hg, ?_⟩
    rintro pre cse post rfl hmode hlistener hreport
    have hplace : (pre ++ cse :: post)[pre.length]? = some cse := by
      rw [List.getElem?_append_right (Nat.le_refl _), Nat.sub_self]
      rfl
    have hgo := ((calledAt_iff hwf hb hg hmode).mp
      ((hcalled pre.length cse hplace hmode).mpr ⟨hlistener, hreport⟩)).1
    refine hgo.resolve_left fun hconfig => ?_
    rw [hg] at hconfig
    cases hconfig
  · rintro ⟨hg, hclear⟩
    have hk : ¬ RequestWithoutCommand xm := by
      intro hk
      rw [classOf_request hk.1] at hg
      cases hg
    refine ⟨xm, hparse, fun cse => ?_, fun i cse hcse hmode => ?_⟩
    · rw [serviceTurn_eq hwf, if_neg hk]
      exact congrArg _ hg
    · obtain ⟨pre, post, rfl, rfl⟩ := Lib.exists_split hcse
      rw [calledAt_iff hwf hb hg hmode]
      refine and_iff_right_of_imp fun hboth => .inr ?_
      exact hclear pre cse post rfl hmode hboth.1 hboth.2

/-- A service `v-d.i` that listens for group messages. -/
def groupListener : XplService :=
  { sampleService .XPL_REPORT_MODE_NORMAL with reportGroupMessages := true }

/-- A command of that service to the group `g`. -/
def sampleGroup (theClass theType : CString) : XplMessage :=
  groupMessage groupListener .XPL_MESSAGE_COMMAND (cstr "g") theClass theType []

theorem sampleGroup_fits {theClass theType : CString} (hclass : 46 ∉ theClass)
    (h : HeaderFits (theClass ++ 46 :: theType)) : (sampleGroup theClass theType).Fits where
  source := show TagFits (cstr "v") (cstr "d") (cstr "i") by decide
  target _ := show TagFits (cstr "xpl") (cstr "group") (cstr "g") by decide
  schemaClass := hclass
  schema := h
  values := fun le hle => absurd hle List.not_mem_nil
  pairs := fun le hle => absurd hle List.not_mem_nil

/-- The text of the command with a schema. -/
def groupText (schema : CString) : CString :=
  cstr "xpl-cmnd\n\x7b\nhop=1\nsource=v-d.i\ntarget=xpl-group.g\n\x7d\n" ++ schema ++
    cstr "\n\x7b\n\x7d\n"

theorem reportedToGroup_sample :
    ReportedToGroup (groupText (cstr "group.xpl")) [groupListener] := by
  have hfits : (sampleGroup (cstr "group") (cstr "xpl")).Fits :=
    sampleGroup_fits (by decide) (by decide)
  apply (reportedToGroup_iff hfits rfl _).mpr
  refine ⟨⟨rfl, rfl⟩, clearPath_of_forall ?_⟩
  intro c hc
  rw [List.mem_singleton.mp hc]
  decide

/-- A group message of another schema is not reported to its group. -/
theorem controlBasic_not_reported :
    (sampleGroup (cstr "control") (cstr "basic")).Fits ∧
    formatMessage (sampleGroup (cstr "control") (cstr "basic")) =
      .ok (some (groupText (cstr "control.basic"))) ∧
    ¬ ReportedToGroup (groupText (cstr "control.basic")) [groupListener] := by
  have hfits : (sampleGroup (cstr "control") (cstr "basic")).Fits :=
    sampleGroup_fits (by decide) (by decide)
  refine ⟨hfits, rfl, fun hreported => ?_⟩
  have hclass := hreported.class (parseMessage_formatMessage hfits rfl)
  exact absurd ((classOf_groupMessage _ _ _ _ _ _).mp hclass).1 (by decide)

end XplEvent.Service
