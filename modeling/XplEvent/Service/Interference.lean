import XplEvent.Service.Delivery

/-!
# What one service's mode does to the next

In a traversal of the list a service's turn depends on the message and on
the service alone, although the message is rewritten in every turn. The
exception is the jump to `cleanup` of a service that asks for
configuration messages only: it is meant to end that service's turn and
ends the traversal, so that no service behind it has a turn.
-/

namespace XplEvent.Service

open Wire

/-- The outcome of the service at a place of the list. -/
def outcomeAt (xm : XplMessage) (servHead : List XplService) (i : Nat) :
    Except Fault (Option Outcome) :=
  (dispatch xm servHead).map (·[i]?)

/-- Behind these services every service has the outcome it has alone,
whatever follows it. -/
def Undisturbed (xm : XplMessage) (pre : List XplService) : Prop :=
  ∀ (cse : XplService) (post : List XplService),
    outcomeAt xm (pre ++ cse :: post) pre.length = outcomeAt xm [cse] 0

/-- When the turn of a service goes on to the next. -/
theorem turnOf_goes_on_iff (xm : XplMessage) (cse : XplService) : (turnOf xm cse).2 = true ↔
    classOf xm = .XPL_MSG_CLASS_CONFIG ∨ cse.reportMode ≠ .XPL_REPORT_CONFIG_MESSAGES_ONLY := by
  rw [turnOf_goes_on, decideReport, served_reportMode,
    show (heard xm cse).messageClass = classOf xm from rfl]
  by_cases hm : cse.reportMode = .XPL_REPORT_CONFIG_MESSAGES_ONLY
  · by_cases hc : classOf xm = .XPL_MSG_CLASS_CONFIG
    · simp [hm, hc]
    · simp [hm, hc]
  · rw [if_neg hm]
    refine iff_of_true ?_ (.inr hm)
    split
    · rfl
    · split
      · rfl
      · rfl

/-- Every service of the list goes on to the next. -/
def GoesOn (xm : XplMessage) (pre : List XplService) : Prop :=
  classOf xm = .XPL_MSG_CLASS_CONFIG ∨
    ∀ c ∈ pre, c.reportMode ≠ .XPL_REPORT_CONFIG_MESSAGES_ONLY

theorem all_go_on_iff (xm : XplMessage) (pre : List XplService) :
    (pre.all fun c => (turnOf xm c).2) = true ↔ GoesOn xm pre := by
  rw [List.all_eq_true]
  constructor
  · intro hall
    by_cases hc : classOf xm = .XPL_MSG_CLASS_CONFIG
    · exact .inl hc
    · exact .inr fun c hmem => ((turnOf_goes_on_iff xm c).mp (hall c hmem)).resolve_left hc
  · rintro (hc | hmode) c hmem
    · exact (turnOf_goes_on_iff xm c).mpr (.inl hc)
    · exact (turnOf_goes_on_iff xm c).mpr (.inr (hmode c hmem))

theorem outcomeAt_eq {xm : XplMessage} (h : xm.WellFormed) (hk : ¬ RequestWithoutCommand xm)
    (pre : List XplService) (cse : XplService) (post : List XplService) :
    outcomeAt xm (pre ++ cse :: post) pre.length =
      .ok (some (if pre.all fun c => (turnOf xm c).2 then (turnOf xm cse).1 else (cse, none))) := by
  rw [outcomeAt, dispatch_eq h hk, Except.map, Lib.outcomes_getElem?]

theorem outcomeAt_fault {xm : XplMessage} (h : xm.WellFormed) (hk : RequestWithoutCommand xm)
    (pre : List XplService) (cse : XplService) (post : List XplService) (i : Nat) :
    outcomeAt xm (pre ++ cse :: post) i = .error .nullDeref := by
  cases pre with
  | nil =>
    rw [List.nil_append, outcomeAt, dispatch_fault h hk]
    rfl
  | cons c pre =>
    rw [List.cons_append, outcomeAt, dispatch_fault h hk]
    rfl

/-- A service that hears a given message in the normal mode. -/
def audience (xm : XplMessage) : XplService :=
  { sampleService .XPL_REPORT_MODE_NORMAL with
    reportGroupMessages := true
    serviceVendor := if xm.isBroadcastMessage then 33 :: xm.sourceVendor.getD []
      else xm.targetVendor.getD []
    serviceDeviceID := xm.targetDeviceID.getD []
    serviceInstanceID := xm.targetInstanceID.getD [] }

theorem audience_hears {xm : XplMessage} (h : xm.WellFormed) :
    HeardInNormalMode xm (audience xm) := by
  cases hb : xm.isBroadcastMessage with
  | true =>
    refine .inl ⟨hb, fun hown => ?_⟩
    have hvendor := hown.1
    rw [audience, hb, if_pos rfl] at hvendor
    have hlen := congrArg (fun o : Option CString => (o.getD []).length) hvendor
    simp only [Option.getD_some, List.length_cons] at hlen
    omega
  | false =>
    by_cases hg : classOf xm = .XPL_MSG_CLASS_GROUP
    · exact .inr (.inl ⟨hb, hg, rfl⟩)
    · refine .inr (.inr ⟨hb, hg, ?_, (some_getD (h.targetDeviceID hb) []).symm,
        (some_getD (h.targetInstanceID hb) []).symm⟩)
      rw [audience, hb, if_neg Bool.false_ne_true]
      exact (some_getD (h.targetVendor hb) []).symm

/-- **The services before it do not matter to a service exactly when** the
message is a configuration message, or fatal to whichever service is
first, or none of them asks for configuration messages only. -/
theorem undisturbed_iff {theText : CString} {xm : XplMessage}
    (h : parseMessage theText = .ok (some xm)) (pre : List XplService) :
    Undisturbed xm pre ↔ RequestWithoutCommand xm ∨ GoesOn xm pre := by
  have hwf := parseMessage_wellFormed h
  by_cases hk : RequestWithoutCommand xm
  · refine iff_of_true (fun cse post => ?_) (.inl hk)
    rw [outcomeAt_fault hwf hk, ← List.nil_append [cse], outcomeAt_fault hwf hk]
  · have halone : ∀ cse, outcomeAt xm [cse] 0 = .ok (some (turnOf xm cse).1) :=
      fun cse => outcomeAt_eq hwf hk [] cse []
    constructor
    · intro hundisturbed
      by_cases hall : (pre.all fun c => (turnOf xm c).2) = true
      · exact .inr ((all_go_on_iff xm pre).mp hall)
      · -- the audience of the message loses its call behind these services
        have hlost := hundisturbed (audience xm) []
        rw [outcomeAt_eq hwf hk, halone, if_neg hall] at hlost
        have hcall := congrArg Prod.snd (Option.some.inj (Except.ok.inj hlost))
        have hcallit := (decideReport_callit xm (audience xm)).mpr (audience_hears hwf)
        rw [turnOf_call, if_pos hcallit, callListener, served_listener] at hcall
        cases hcall
    · intro hcond cse post
      rw [outcomeAt_eq hwf hk, halone, if_pos ((all_go_on_iff xm pre).mpr (hcond.resolve_left hk))]

theorem undisturbed_sample :
    Undisturbed sampleMessage [sampleService .XPL_REPORT_OWN_MESSAGES] :=
  (undisturbed_iff parseMessage_sampleText _).mpr (.inr (.inr (by decide)))

/-- A service that asks for configuration messages only keeps a broadcast
from the service behind it. -/
theorem sampleMessage_disturbed :
    ¬ ∀ theText xm, parseMessage theText = .ok (some xm) → ∀ pre, Undisturbed xm pre := by
  intro h
  have hlost := h sampleText sampleMessage parseMessage_sampleText
    [sampleService .XPL_REPORT_CONFIG_MESSAGES_ONLY] (sampleService .XPL_REPORT_MODE_NORMAL) []
  have hcalled := congrArg
    (fun o : Except Fault (Option Outcome) => o.toOption.bind (·.map (·.2.isSome))) hlost
  exact absurd hcalled (by decide)

end XplEvent.Service
