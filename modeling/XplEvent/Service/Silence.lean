import XplEvent.Service.Turns

/-!
# A disabled service and what is heard of it

A disabled service should be silent: after the goodbye that its disabling
sends, no heartbeat goes out for it and its listener is not called until
it is enabled. `Quiet` is a monitor of one service's events that allows no
more than that.

Neither the tick nor the dispatcher looks at `serviceEnabled`. A disabled
service is silent in the runs where no tick sends a heartbeat for it and
nothing is delivered to its listener; a new service's timer has expired
from the start.
-/

namespace XplEvent.Service

open Wire Lib

/-- What the monitor knows of a service: whether it is enabled, and
whether its goodbye is still to come. -/
structure Quiet where
  on : Bool
  goodbyeDue : Bool
deriving DecidableEq, Repr

/-- The monitor: heartbeats and calls while the service is enabled, one
goodbye after it is disabled. -/
def quiet (m : Quiet) : ServiceEvent → Option Quiet
  | .enabled => some ⟨true, false⟩
  | .disabled => some ⟨false, true⟩
  | .heartbeat _ => if m.on then some m else none
  | .goodbye _ => if m.goodbyeDue then some { m with goodbyeDue := false } else none
  | .listener _ => if m.on then some m else none

/-- A service that is not there yet is not enabled. -/
def Quiet.start : Quiet := ⟨false, false⟩

/-- The service at place `i` is silent in the run whenever it is
disabled. -/
def SilentWhenDisabled (i : Nat) (xp : XplObj) (steps : List Step) : Prop :=
  Accepts (component quiet i) .start (run step xp steps).1

/-- The flag of the service at place `i`, if there is one. -/
def enabledAt (servHead : List XplService) (i : Nat) : Bool :=
  (servHead[i]?).elim false (·.serviceEnabled)

/-- A tick goes through the services: the timer can be read, and the
watchdog, when it is looked at, has counted. -/
def GoesThrough (xp : XplObj) (timerRead wdog : Bool) : Prop :=
  timerRead = true ∧ ((xp.ticks + 1) % 10 = 9 → wdog = true)

/-- A step that does not make the service at place `i` break its silence:
no tick that goes through the services, and whose heartbeat the socket
takes, finds it disabled with its timer expired, and no message finds it
disabled and is delivered to its listener. -/
def Spares (i : Nat) (xp : XplObj) : Step → Prop
  | .xplTick timerRead wdog sent => GoesThrough xp timerRead wdog → sent i = true →
    ∀ xs, xp.servHead[i]? = some xs → xs.serviceEnabled = false →
      xs.configurableService = true ∨ xs.heartbeatTimer ≠ 0
  | .received theString => ∀ xm, parseMessage theString = .ok (some xm) →
    ∀ pre cse post, xp.servHead = pre ++ cse :: post → pre.length = i →
      cse.serviceEnabled = false →
      ¬ (cse.listener.isSome = true ∧ CalledInTurn xm cse ∧ GoesOn xm pre ∧
        ¬ RequestWithoutCommand xm)
  | _ => True

/-! ## What is done to one service -/

/-- The monitor reads the events of a deed and keeps the flag in step. -/
def KeepsUp (xs : XplService) (deed : Deed) : Prop :=
  ∀ m : Quiet, m.on = xs.serviceEnabled → ∃ m', watch quiet m deed.1 = some m' ∧
    ∀ xs', deed.2 = .ok xs' → m'.on = xs'.serviceEnabled

theorem watch_heartbeats {m : Quiet} (hm : m.on = true) (out : Option XplMessage) :
    watch quiet m (out.toList.map .heartbeat) = some m := by
  cases out with
  | none => rfl
  | some theHeartbeat =>
    rw [Option.toList_some, List.map_cons, watch_cons, quiet, if_pos hm]
    rfl

theorem setServiceState_keepsUp (xp : XplObj) (newState sent : Bool) (xs : XplService) :
    KeepsUp xs (setServiceState xp newState sent xs) := by
  intro m hm
  unfold setServiceState
  split
  · refine ⟨m, rfl, fun xs' h => ?_⟩
    cases h
    exact hm
  · cases newState with
    | true =>
      simp only [if_true]
      split
      · exact ⟨_, rfl, fun xs' h => nomatch h⟩
      · rename_i xs₁ out hsend
        refine ⟨⟨true, false⟩, ?_, fun xs' h => ?_⟩
        · rw [watch_cons, quiet]
          exact watch_heartbeats rfl out
        · cases h
          exact (sendHeartbeat_serviceEnabled hsend).symm
    | false =>
      simp only [Bool.false_eq_true, if_false]
      split
      · exact ⟨_, rfl, fun xs' h => nomatch h⟩
      · rename_i out hsend
        cases out with
        | none =>
          refine ⟨⟨false, true⟩, rfl, fun xs' h => ?_⟩
          cases h
          rfl
        | some theHeartbeat =>
          refine ⟨⟨false, false⟩, rfl, fun xs' h => ?_⟩
          cases h
          rfl

theorem XplAddMessageListener_keepsUp (reportMode : XPLListenerReportMode)
    (reportGroupMessages : Bool) (listener : XplListener) (xs : XplService) :
    KeepsUp xs (XplAddMessageListener reportMode reportGroupMessages listener xs) := by
  intro m hm
  refine ⟨m, rfl, fun xs' h => ?_⟩
  cases h
  exact hm

/-- Nothing goes out if the socket does not take it. -/
theorem sendHeartbeat_unsent {xp : XplObj} {xs xs' : XplService} {out : Option XplMessage}
    (h : sendHeartbeat xp xs false = .ok (xs', out)) : out = none := by
  unfold sendHeartbeat at h
  obtain ⟨went, hsend, h⟩ := bind_ok h
  have hno : went = false := by
    obtain ⟨text, -, hwent⟩ := bind_ok hsend
    cases text <;> cases hwent <;> rfl
  subst hno
  cases h
  rfl

theorem tickService_keepsUp (xp : XplObj) {sent : Bool} {xs : XplService}
    (h : sent = true → xs.serviceEnabled = false →
      xs.configurableService = true ∨ xs.heartbeatTimer ≠ 0) :
    KeepsUp xs (tickService xp sent xs) := by
  intro m hm
  unfold tickService
  split
  · rename_i hnormal
    split
    · rename_i htimer
      split
      · exact ⟨m, rfl, fun xs' h => nomatch h⟩
      · rename_i xs₁ out hsend
        have hwatch : watch quiet m (out.toList.map .heartbeat) = some m := by
          cases hs : xs.serviceEnabled with
          | true => exact watch_heartbeats (hm.trans hs) out
          | false =>
            cases sent with
            | true =>
              rcases h rfl hs with hconf | hne
              · rw [hnormal] at hconf
                cases hconf
              · exact absurd htimer hne
            | false =>
              rw [sendHeartbeat_unsent hsend]
              rfl
        refine ⟨m, hwatch, fun xs' h => ?_⟩
        cases h
        rw [hm]
        exact (sendHeartbeat_serviceEnabled hsend).symm
    · refine ⟨m, rfl, fun xs' h => ?_⟩
      cases h
      exact hm
  · refine ⟨m, rfl, fun xs' h => ?_⟩
    cases h
    exact hm

/-! ## The steps -/

/-- What a step does to the service at place `i`, as the monitor of that
place sees it. -/
def StepKeepsUp (i : Nat) (servHead : List XplService)
    (result : List (Nat × ServiceEvent) × Except Fault XplObj) : Prop :=
  ∀ m : Quiet, m.on = enabledAt servHead i →
    ∃ m', watch (component quiet i) m result.1 = some m' ∧
      ∀ xp', result.2 = .ok xp' → m'.on = enabledAt xp'.servHead i

theorem enabledAt_eq {servHead : List XplService} {i : Nat} {xs : XplService}
    (h : servHead[i]? = some xs) : enabledAt servHead i = xs.serviceEnabled := by
  rw [enabledAt, h]
  rfl

/-- A service that is created disabled changes no flag. -/
theorem enabledAt_append (servHead : List XplService) {xs : XplService}
    (h : xs.serviceEnabled = false) (i : Nat) :
    enabledAt (servHead ++ [xs]) i = enabledAt servHead i := by
  unfold enabledAt
  by_cases hlt : i < servHead.length
  · rw [List.getElem?_append_left hlt]
  · rw [List.getElem?_append_right (by omega), List.getElem?_eq_none (by omega : servHead.length ≤ i)]
    cases i - servHead.length with
    | zero => exact h
    | succ n => rfl

theorem onService_keepsUp {xp : XplObj} {j : Nat} {deed : XplService → Deed}
    (h : ∀ xs, xp.servHead[j]? = some xs → KeepsUp xs (deed xs)) (i : Nat) :
    StepKeepsUp i xp.servHead (onService xp j deed) := by
  intro m hm
  unfold onService
  split
  · exact ⟨m, rfl, fun xp' h => nomatch h⟩
  · rename_i xs hxs
    by_cases hij : j = i
    · subst hij
      rw [enabledAt_eq hxs] at hm
      obtain ⟨m', hwatch, hflag⟩ := h xs hxs m hm
      refine ⟨m', (watch_own quiet j m _).trans hwatch, fun xp' hxp' => ?_⟩
      obtain ⟨xs', hresult, rfl⟩ := map_ok hxp'
      have hlt : j < xp.servHead.length := (List.getElem?_eq_some_iff.mp hxs).1
      rw [enabledAt_eq (List.getElem?_set_self hlt)]
      exact hflag xs' hresult
    · refine ⟨m, watch_other quiet hij m _, fun xp' hxp' => ?_⟩
      obtain ⟨xs', -, rfl⟩ := map_ok hxp'
      rw [hm, enabledAt, enabledAt, List.getElem?_set_ne hij]

/-- The events of place `i` in a traversal, and the flag behind it. -/
theorem tickServices_keepsUp (xp : XplObj) (sent : Nat → Bool) {servHead : List XplService}
    {i k : Nat} (h : sent (k + i) = true → ∀ xs, servHead[i]? = some xs →
      xs.serviceEnabled = false → xs.configurableService = true ∨ xs.heartbeatTimer ≠ 0) :
    ∀ m : Quiet, m.on = enabledAt servHead i →
      ∃ m', watch quiet m ((tickServices xp sent k servHead).1[i]?.getD []) = some m' ∧
        ∀ servHead', (tickServices xp sent k servHead).2 = .ok servHead' →
          m'.on = enabledAt servHead' i := by
  induction servHead generalizing i k with
  | nil =>
    intro m hm
    refine ⟨m, rfl, fun servHead' h' => ?_⟩
    cases h'
    exact hm
  | cons xs rest ih =>
    intro m hm
    unfold tickServices
    rcases hdeed : tickService xp (sent k) xs with ⟨es, f | xs'⟩
    · cases i with
      | zero =>
        have hfirst : KeepsUp xs (tickService xp (sent k) xs) :=
          tickService_keepsUp xp fun hsent => h hsent xs rfl
        obtain ⟨m', hwatch, -⟩ := hfirst m hm
        rw [hdeed] at hwatch
        refine ⟨m', hwatch, ?_⟩
        rintro servHead' ⟨⟩
      | succ i =>
        refine ⟨m, rfl, ?_⟩
        rintro servHead' ⟨⟩
    · cases i with
      | zero =>
        have hfirst : KeepsUp xs (tickService xp (sent k) xs) :=
          tickService_keepsUp xp fun hsent => h hsent xs rfl
        obtain ⟨m', hwatch, hflag⟩ := hfirst m hm
        rw [hdeed] at hwatch hflag
        refine ⟨m', hwatch, fun servHead' h' => ?_⟩
        obtain ⟨rest', -, rfl⟩ := map_ok h'
        exact hflag xs' rfl
      | succ i =>
        have hrest : sent (k + 1 + i) = true → ∀ xs, rest[i]? = some xs →
            xs.serviceEnabled = false → xs.configurableService = true ∨ xs.heartbeatTimer ≠ 0 :=
          fun hsent xs hxs => h (Nat.add_right_comm k 1 i ▸ hsent) xs hxs
        obtain ⟨m', hwatch, hflag⟩ := ih hrest m hm
        refine ⟨m', hwatch, fun servHead' h' => ?_⟩
        obtain ⟨rest', hrest, rfl⟩ := map_ok h'
        exact hflag rest' hrest

theorem xplTick_keepsUp {xp : XplObj} {i : Nat} (timerRead wdog : Bool) (sent : Nat → Bool)
    (h : Spares i xp (.xplTick timerRead wdog sent)) :
    StepKeepsUp i xp.servHead (xplTick xp timerRead wdog sent) := by
  intro m hm
  unfold xplTick
  simp only
  split
  · exact ⟨m, rfl, fun xp' h' => nomatch h'⟩
  · rename_i hwdog
    split
    · refine ⟨m, rfl, fun xp' h' => ?_⟩
      cases h'
      exact hm
    · rename_i htimer
      have hthrough : GoesThrough xp timerRead wdog :=
        ⟨Decidable.not_not.mp htimer, fun hticks => Decidable.byContradiction fun hno =>
          hwdog ⟨hticks, hno⟩⟩
      obtain ⟨m', hwatch, hflag⟩ := tickServices_keepsUp { xp with ticks := xp.ticks + 1 } sent
        (i := i) (k := 0) (fun hsent => h hthrough (Nat.zero_add i ▸ hsent)) m hm
      refine ⟨m', ?_, fun xp' h' => ?_⟩
      · rw [← Nat.zero_add i]
        exact watch_tagged hwatch
      · obtain ⟨servHead', hresult, rfl⟩ := map_ok h'
        exact hflag servHead' hresult

theorem served_serviceEnabled (xm : XplMessage) (cse : XplService) :
    (served xm cse).serviceEnabled = cse.serviceEnabled := by
  obtain ⟨discoveryState, heartbeatTimer, hserved⟩ := served_frame xm cse
  rw [hserved]

/-- A call that is made was due. -/
theorem turnOf_due {xm : XplMessage} {cse : XplService} {call : ListenerCall}
    (h : (turnOf xm cse).1.2 = some call) :
    cse.listener.isSome = true ∧ CalledInTurn xm cse := by
  rw [turnOf_call] at h
  split at h
  · rename_i hcallit
    refine ⟨?_, (decideReport_callit xm cse).mp hcallit⟩
    rw [callListener, served_listener] at h
    cases hl : cse.listener with
    | none =>
      rw [hl] at h
      cases h
    | some listener => rfl
  · cases h

/-- The outcome of place `i` in a dispatch: the flag is kept, and a call
was due. -/
theorem dispatch_at {xm : XplMessage} (h : xm.WellFormed) {servHead : List XplService}
    {outcomes : List Outcome} (hd : dispatch xm servHead = .ok outcomes) (i : Nat) :
    enabledAt (outcomes.map (·.1)) i = enabledAt servHead i ∧
    ∀ o call, outcomes[i]? = some o → o.2 = some call → ∃ pre cse post,
      servHead = pre ++ cse :: post ∧ pre.length = i ∧ cse.listener.isSome = true ∧
      CalledInTurn xm cse ∧ GoesOn xm pre ∧ ¬ RequestWithoutCommand xm := by
  rcases dispatch_getElem? h hd i with ⟨hnone, hout⟩ | ⟨pre, cse, post, rfl, rfl, hout⟩
  · rw [enabledAt, enabledAt, List.getElem?_map, hout, hnone]
    exact ⟨rfl, fun o call ho => nomatch ho⟩
  · have hcse : (pre ++ cse :: post)[pre.length]? = some cse := by
      rw [List.getElem?_append_right (Nat.le_refl _), Nat.sub_self]
      rfl
    rw [enabledAt, enabledAt, List.getElem?_map, hcse]
    rcases hout with ⟨hgo, hk, hout⟩ | hout
    · rw [hout]
      refine ⟨?_, fun o call ho hcall => ⟨pre, cse, post, rfl, rfl, ?_⟩⟩
      · show ((turnOf xm cse).1.1).serviceEnabled = cse.serviceEnabled
        rw [turnOf_service, served_serviceEnabled]
      · cases ho
        obtain ⟨hlistener, hdue⟩ := turnOf_due hcall
        exact ⟨hlistener, hdue, hgo, hk⟩
    · rw [hout]
      refine ⟨rfl, fun o call ho hcall => ?_⟩
      cases ho
      cases hcall

theorem received_keepsUp {xp : XplObj} {i : Nat} {theString : CString}
    (h : Spares i xp (.received theString)) :
    StepKeepsUp i xp.servHead (received xp theString) := by
  intro m hm
  unfold received
  split
  · exact ⟨m, rfl, fun xp' h' => nomatch h'⟩
  · refine ⟨m, rfl, fun xp' h' => ?_⟩
    cases h'
    exact hm
  · rename_i xm hparse
    split
    · exact ⟨m, rfl, fun xp' h' => nomatch h'⟩
    · rename_i outcomes hdispatch
      obtain ⟨hflag, hcall⟩ := dispatch_at (parseMessage_wellFormed hparse) hdispatch i
      refine ⟨m, ?_, fun xp' h' => ?_⟩
      · rw [← Nat.zero_add i]
        refine watch_tagged ?_
        rw [List.getElem?_map]
        cases ho : outcomes[i]? with
        | none => rfl
        | some o =>
          obtain ⟨xs, call⟩ := o
          cases call with
          | none => rfl
          | some call =>
            obtain ⟨pre, cse, post, hsplit, hlen, hdue⟩ := hcall _ call ho rfl
            have hon : m.on = true := by
              cases hs : cse.serviceEnabled with
              | true =>
                have hcse : xp.servHead[i]? = some cse := by
                  rw [hsplit, ← hlen, List.getElem?_append_right (Nat.le_refl _), Nat.sub_self]
                  rfl
                rw [hm, enabledAt_eq hcse, hs]
              | false => exact absurd hdue (h xm hparse pre cse post hsplit hlen hs)
            show watch quiet m [.listener call] = some m
            rw [watch_cons, quiet, if_pos hon]
            rfl
      · cases h'
        rw [hm]
        exact hflag.symm

/-- **A step that spares a service keeps the monitor reading.** -/
theorem step_keepsUp {i : Nat} {xp : XplObj} {s : Step} (h : Spares i xp s) :
    StepKeepsUp i xp.servHead (step xp s) := by
  cases s with
  | XplNewService theVendor theDeviceID theInstanceID theVersion =>
    intro m hm
    refine ⟨m, rfl, fun xp' h' => ?_⟩
    cases h'
    rw [hm]
    exact (enabledAt_append xp.servHead rfl i).symm
  | XplEnableService servToEnable sent =>
    exact onService_keepsUp (fun xs _ => setServiceState_keepsUp xp true sent xs) i
  | XplDisableService servToDisable sent =>
    exact onService_keepsUp (fun xs _ => setServiceState_keepsUp xp false sent xs) i
  | XplAddMessageListener theService reportMode reportGroupMessages listener =>
    exact onService_keepsUp (fun xs _ =>
      XplAddMessageListener_keepsUp reportMode reportGroupMessages listener xs) i
  | xplTick timerRead wdog sent => exact xplTick_keepsUp timerRead wdog sent h
  | received theString => exact received_keepsUp h

/-- **In every run whose steps all spare it, a service is silent whenever
it is disabled.** -/
theorem silentWhenDisabled_of_spares {xp : XplObj} (hinit : xp.servHead = []) {i : Nat}
    {steps : List Step} (h : EachStep step (Spares i) xp steps) :
    SilentWhenDisabled i xp steps := by
  have hstart : Quiet.start.on = enabledAt xp.servHead i := by
    rw [hinit]
    rfl
  obtain ⟨m, hm, -⟩ := watch_run (R := fun xp m => m.on = enabledAt xp.servHead i)
    (fun xp m s hR hs => step_keepsUp hs m hR) hstart h
  exact ⟨m, hm⟩

/-- A service is created, enabled and disabled, and the timer ticks. -/
def sampleSteps : List Step :=
  [.XplNewService (cstr "v") (cstr "d") (cstr "i") none, .XplEnableService 0 true,
    .XplDisableService 0 true, .xplTick true true fun _ => true]

theorem sampleSteps_silent : SilentWhenDisabled 0 sampleObj sampleSteps := by
  refine silentWhenDisabled_of_spares rfl
    ⟨trivial, trivial, trivial, fun _ _ xs hxs _ => ?_, trivial⟩
  cases hxs
  exact .inr (by decide)

/-- A service is created, and the timer ticks. -/
def newServiceSteps : List Step :=
  [.XplNewService (cstr "v") (cstr "d") (cstr "i") none, .xplTick true true fun _ => true]

set_option maxRecDepth 4000 in
/-- The first tick sends a heartbeat for a service that was never
enabled. -/
theorem newService_not_silent : ¬ ∀ xp : XplObj, xp.servHead = [] → ∀ i steps,
    SilentWhenDisabled i xp steps := by
  intro h
  obtain ⟨m, hm⟩ := h sampleObj rfl 0 newServiceSteps
  have hnone : watch (component quiet 0) .start (run step sampleObj newServiceSteps).1 = none := rfl
  rw [hnone] at hm
  cases hm

end XplEvent.Service
