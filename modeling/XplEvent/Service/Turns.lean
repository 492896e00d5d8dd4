import XplEvent.Service.Interference
import XplEvent.Service.Lifecycle

/-!
# What a step makes of one service

A step of the system moves the services of the list on, each by itself.
`step_turned` says once what a step can make of the service at a place;
what is shown of a service over a run is shown from it.
-/

namespace XplEvent.Service

open Wire Lib

/-- The outcome of a place in a dispatch: the one of its turn, or none if
a service before it has stopped the traversal. -/
theorem dispatch_getElem? {xm : XplMessage} (h : xm.WellFormed) {servHead : List XplService}
    {outcomes : List Outcome} (hd : dispatch xm servHead = .ok outcomes) (i : Nat) :
    (servHead[i]? = none ∧ outcomes[i]? = none) ∨
    ∃ pre cse post, servHead = pre ++ cse :: post ∧ pre.length = i ∧
      ((GoesOn xm pre ∧ ¬ RequestWithoutCommand xm ∧ outcomes[i]? = some (turnOf xm cse).1) ∨
        outcomes[i]? = some (cse, none)) := by
  by_cases hk : RequestWithoutCommand xm
  · cases servHead with
    | nil =>
      cases hd
      exact .inl ⟨rfl, rfl⟩
    | cons cse rest =>
      rw [dispatch_fault h hk] at hd
      cases hd
  · rw [dispatch_eq h hk] at hd
    cases hd
    cases hcse : servHead[i]? with
    | none =>
      refine .inl ⟨rfl, ?_⟩
      rw [List.getElem?_eq_none_iff, outcomes_length]
      exact List.getElem?_eq_none_iff.mp hcse
    | some cse =>
      obtain ⟨pre, post, rfl, rfl⟩ := exists_split hcse
      refine .inr ⟨pre, cse, post, rfl, rfl, ?_⟩
      rw [outcomes_getElem?]
      by_cases hall : (pre.all fun c => (turnOf xm c).2) = true
      · rw [if_pos hall]
        exact .inl ⟨(all_go_on_iff xm pre).mp hall, hk, rfl⟩
      · rw [if_neg hall]
        exact .inr rfl

/-! ## What the functions on a service return -/

/-- What `sendHeartbeat` makes of a service: it keeps the message, and
starts the timer if the message went out. -/
theorem sendHeartbeat_ok {xp : XplObj} {xs xs' : XplService} {sent : Bool}
    {out : Option XplMessage} (h : sendHeartbeat xp xs sent = .ok (xs', out)) :
    (out = none ∧ xs' = { xs with heartbeatMessage := some (currentHeartbeat xp xs) }) ∨
    (out = some (currentHeartbeat xp xs) ∧
      xs' = resetHeartbeatTimer { xs with heartbeatMessage := some (currentHeartbeat xp xs) }) := by
  unfold sendHeartbeat at h
  obtain ⟨went, -, h⟩ := bind_ok h
  cases went with
  | true =>
    cases h
    exact .inr ⟨rfl, rfl⟩
  | false =>
    cases h
    exact .inl ⟨rfl, rfl⟩

/-- A service that has just been enabled, and looks for its hub anew. -/
def restarted (xs : XplService) : XplService :=
  { xs with
    serviceEnabled := true
    heartbeatMessage := none
    discoveryState := .XPL_HUB_UNCONFIRMED
    discoveryTries := 0 }

/-- What `setServiceState` makes of a service. -/
theorem setServiceState_ok {xp : XplObj} {newState sent : Bool} {xs xs' : XplService}
    (h : (setServiceState xp newState sent xs).2 = .ok xs') :
    (xs.serviceEnabled = newState ∧ xs' = xs) ∨
    (xs.serviceEnabled = false ∧ newState = true ∧
      ∃ out, sendHeartbeat xp (restarted xs) sent = .ok (xs', out)) ∨
    (xs.serviceEnabled = true ∧ newState = false ∧ xs' = { xs with serviceEnabled := false }) := by
  unfold setServiceState at h
  by_cases hsame : xs.serviceEnabled = newState
  · rw [if_pos hsame] at h
    cases h
    exact .inl ⟨hsame, rfl⟩
  · rw [if_neg hsame] at h
    right
    cases newState with
    | true =>
      simp only [if_true] at h
      split at h
      · cases h
      · rename_i hsend
        cases h
        exact .inl ⟨Bool.not_eq_true _ ▸ hsame, rfl, _, hsend⟩
    | false =>
      simp only [Bool.false_eq_true, if_false] at h
      split at h
      · cases h
      · cases h
        exact .inr ⟨Bool.not_eq_false _ ▸ hsame, rfl, rfl⟩

theorem resetHeartbeatTimer_serviceEnabled (xs : XplService) :
    (resetHeartbeatTimer xs).serviceEnabled = xs.serviceEnabled := by
  unfold resetHeartbeatTimer
  cases xs.discoveryState with
  | XPL_HUB_UNCONFIRMED =>
    simp only
    split
    · rfl
    · rfl
  | XPL_HUB_NO_ECHO => rfl
  | XPL_HUB_CONFIRMED => rfl

theorem sendHeartbeat_serviceEnabled {xp : XplObj} {xs xs' : XplService} {sent : Bool}
    {out : Option XplMessage} (h : sendHeartbeat xp xs sent = .ok (xs', out)) :
    xs'.serviceEnabled = xs.serviceEnabled := by
  rcases sendHeartbeat_ok h with ⟨-, rfl⟩ | ⟨-, rfl⟩
  · rfl
  · exact resetHeartbeatTimer_serviceEnabled _

/-- The flag is what it was set to. -/
theorem setServiceState_serviceEnabled {xp : XplObj} {newState sent : Bool} {xs xs' : XplService}
    (h : (setServiceState xp newState sent xs).2 = .ok xs') : xs'.serviceEnabled = newState := by
  rcases setServiceState_ok h with ⟨hsame, rfl⟩ | ⟨-, rfl, out, hsend⟩ | ⟨-, rfl, rfl⟩
  · exact hsame
  · exact sendHeartbeat_serviceEnabled hsend
  · rfl

/-- What the turn in `xplTick` makes of a service. -/
theorem tickService_ok {xp : XplObj} {sent : Bool} {xs xs' : XplService}
    (h : (tickService xp sent xs).2 = .ok xs') :
    (xs.configurableService = true ∧ xs' = xs) ∨
    (xs.configurableService = false ∧ xs.heartbeatTimer = 0 ∧
      ∃ out, sendHeartbeat xp xs sent = .ok (xs', out)) ∨
    (xs.configurableService = false ∧ 0 < xs.heartbeatTimer ∧
      xs' = { xs with heartbeatTimer := xs.heartbeatTimer - 1 }) := by
  unfold tickService at h
  by_cases hplain : xs.configurableService = false
  · rw [if_pos hplain] at h
    right
    by_cases hexpired : xs.heartbeatTimer = 0
    · rw [if_pos hexpired] at h
      split at h
      · cases h
      · rename_i hsend
        cases h
        exact .inl ⟨hplain, hexpired, _, hsend⟩
    · rw [if_neg hexpired] at h
      cases h
      exact .inr ⟨hplain, Nat.pos_of_ne_zero hexpired, rfl⟩
  · rw [if_neg hplain] at h
    cases h
    exact .inl ⟨Bool.not_eq_false _ ▸ hplain, rfl⟩

/-! ## The turn of a service -/

/-- The message of the step is taken by the service at place `i`: no
service before it stops the traversal. -/
def Takes (i : Nat) (xp : XplObj) (theString : CString) (xm : XplMessage) : Prop :=
  parseMessage theString = .ok (some xm) ∧ ¬ RequestWithoutCommand xm ∧
    ∃ pre cse post, xp.servHead = pre ++ cse :: post ∧ pre.length = i ∧ GoesOn xm pre

/-- What a step that returns makes of the service at place `i`. -/
def Turned (i : Nat) (xp : XplObj) (xs xs' : XplService) : Step → Prop
  | .XplNewService _ _ _ _ => xs' = xs
  | .XplEnableService servToEnable sent =>
    if servToEnable = i then (setServiceState xp true sent xs).2 = .ok xs' else xs' = xs
  | .XplDisableService servToDisable sent =>
    if servToDisable = i then (setServiceState xp false sent xs).2 = .ok xs' else xs' = xs
  | .XplAddMessageListener theService reportMode reportGroupMessages listener =>
    if theService = i then
      (XplAddMessageListener reportMode reportGroupMessages listener xs).2 = .ok xs'
    else xs' = xs
  | .xplTick timerRead _ sent =>
    if timerRead then (tickService { xp with ticks := xp.ticks + 1 } (sent i) xs).2 = .ok xs'
    else xs' = xs
  | .received theString =>
    xs' = xs ∨ ∃ xm, Takes i xp theString xm ∧ xs' = served xm xs

/-- **What a step can do to a service**: it leaves it alone, it is a call for
the service, a tick, or a message that the service takes. -/
theorem turned_cases {i : Nat} {xp : XplObj} {xs xs' : XplService} {s : Step}
    (h : Turned i xp xs xs' s) : xs' = xs ∨
    (∃ sent, s = .XplEnableService i sent ∧ (setServiceState xp true sent xs).2 = .ok xs') ∨
    (∃ sent, s = .XplDisableService i sent ∧ (setServiceState xp false sent xs).2 = .ok xs') ∨
    (∃ reportMode reportGroupMessages listener,
      s = .XplAddMessageListener i reportMode reportGroupMessages listener ∧
      (XplAddMessageListener reportMode reportGroupMessages listener xs).2 = .ok xs') ∨
    (∃ wdog sent, s = .xplTick true wdog sent ∧
      (tickService { xp with ticks := xp.ticks + 1 } (sent i) xs).2 = .ok xs') ∨
    ∃ theString xm, s = .received theString ∧ Takes i xp theString xm ∧ xs' = served xm xs := by
  cases s with
  | XplNewService theVendor theDeviceID theInstanceID theVersion => exact .inl h
  | XplEnableService servToEnable sent =>
    by_cases hown : servToEnable = i
    · subst hown
      rw [Turned, if_pos rfl] at h
      exact .inr (.inl ⟨sent, rfl, h⟩)
    · rw [Turned, if_neg hown] at h
      exact .inl h
  | XplDisableService servToDisable sent =>
    by_cases hown : servToDisable = i
    · subst hown
      rw [Turned, if_pos rfl] at h
      exact .inr (.inr (.inl ⟨sent, rfl, h⟩))
    · rw [Turned, if_neg hown] at h
      exact .inl h
  | XplAddMessageListener theService reportMode reportGroupMessages listener =>
    by_cases hown : theService = i
    · subst hown
      rw [Turned, if_pos rfl] at h
      exact .inr (.inr (.inr (.inl ⟨_, _, _, rfl, h⟩)))
    · rw [Turned, if_neg hown] at h
      exact .inl h
  | xplTick timerRead wdog sent =>
    cases timerRead with
    | true => exact .inr (.inr (.inr (.inr (.inl ⟨wdog, sent, rfl, h⟩))))
    | false => exact .inl h
  | received theString =>
    rcases h with hsame | ⟨xm, htakes, hserved⟩
    · exact .inl hsame
    · exact .inr (.inr (.inr (.inr (.inr ⟨theString, xm, rfl, htakes, hserved⟩))))

theorem onService_turned {xp xp' : XplObj} {i j : Nat} {deed : XplService → Deed}
    {xs' : XplService} (h : (onService xp j deed).2 = .ok xp') (hxs' : xp'.servHead[i]? = some xs') :
    ∃ xs, xp.servHead[i]? = some xs ∧ if j = i then (deed xs).2 = .ok xs' else xs' = xs := by
  unfold onService at h
  split at h
  · cases h
  · rename_i xs hxs
    obtain ⟨new, hresult, rfl⟩ := map_ok h
    by_cases hij : j = i
    · subst hij
      have hlt : j < xp.servHead.length := (List.getElem?_eq_some_iff.mp hxs).1
      rw [List.getElem?_set_self hlt] at hxs'
      cases hxs'
      exact ⟨xs, hxs, by rw [if_pos rfl]; exact hresult⟩
    · rw [List.getElem?_set_ne hij] at hxs'
      exact ⟨xs', hxs', by rw [if_neg hij]⟩

theorem tickServices_turned {xp : XplObj} {sent : Nat → Bool} {servHead servHead' : List XplService}
    {i k : Nat} {xs' : XplService} (h : (tickServices xp sent k servHead).2 = .ok servHead')
    (hxs' : servHead'[i]? = some xs') :
    ∃ xs, servHead[i]? = some xs ∧ (tickService xp (sent (k + i)) xs).2 = .ok xs' := by
  induction servHead generalizing i k servHead' with
  | nil =>
    cases h
    cases hxs'
  | cons xs rest ih =>
    unfold tickServices at h
    rcases hdeed : tickService xp (sent k) xs with ⟨es, f | new⟩
    · rw [hdeed] at h
      cases h
    · rw [hdeed] at h
      obtain ⟨rest', hrest, rfl⟩ := map_ok h
      cases i with
      | zero =>
        cases hxs'
        exact ⟨xs, rfl, by rw [Nat.add_zero, hdeed]⟩
      | succ i =>
        obtain ⟨old, hold, hturn⟩ := ih hrest hxs'
        refine ⟨old, hold, ?_⟩
        rw [show k + (i + 1) = k + 1 + i by omega]
        exact hturn

theorem received_turned {xp xp' : XplObj} {theString : CString} {i : Nat} {xs' : XplService}
    (h : (received xp theString).2 = .ok xp') (hxs' : xp'.servHead[i]? = some xs') :
    ∃ xs, xp.servHead[i]? = some xs ∧ Turned i xp xs xs' (.received theString) := by
  unfold received at h
  split at h
  · cases h
  · cases h
    exact ⟨xs', hxs', .inl rfl⟩
  · rename_i xm hparse
    split at h
    · cases h
    · rename_i outcomes hdispatch
      cases h
      rw [List.getElem?_map] at hxs'
      rcases dispatch_getElem? (parseMessage_wellFormed hparse) hdispatch i with
        ⟨-, hnone⟩ | ⟨pre, cse, post, hsplit, hlen, hout⟩
      · rw [hnone] at hxs'
        cases hxs'
      · have hcse : xp.servHead[i]? = some cse := by
          rw [hsplit, ← hlen, List.getElem?_append_right (Nat.le_refl _), Nat.sub_self]
          rfl
        refine ⟨cse, hcse, ?_⟩
        rcases hout with ⟨hgo, hk, hout⟩ | hout
        · rw [hout] at hxs'
          cases hxs'
          exact .inr ⟨xm, ⟨hparse, hk, pre, cse, post, hsplit, hlen, hgo⟩, turnOf_service xm cse⟩
        · rw [hout] at hxs'
          cases hxs'
          exact .inl rfl

/-- **What a step makes of a service**: it is turned from the one that was
at its place, or has just been created. -/
theorem step_turned {xp xp' : XplObj} {s : Step} {i : Nat} {xs' : XplService}
    (h : (step xp s).2 = .ok xp') (hxs' : xp'.servHead[i]? = some xs') :
    (∃ xs, xp.servHead[i]? = some xs ∧ Turned i xp xs xs' s) ∨
    (xp.servHead[i]? = none ∧ ∃ theVendor theDeviceID theInstanceID theVersion,
      xs' = createService theVendor theDeviceID theInstanceID theVersion) := by
  cases s with
  | XplNewService theVendor theDeviceID theInstanceID theVersion =>
    cases h
    by_cases hlt : i < xp.servHead.length
    · rw [List.getElem?_append_left hlt] at hxs'
      exact .inl ⟨xs', hxs', rfl⟩
    · rw [List.getElem?_append_right (by omega)] at hxs'
      refine .inr ⟨List.getElem?_eq_none (by omega), ?_⟩
      rw [List.getElem?_singleton] at hxs'
      split at hxs'
      · cases hxs'
        exact ⟨_, _, _, _, rfl⟩
      · cases hxs'
  | XplEnableService servToEnable sent => exact .inl (onService_turned h hxs')
  | XplDisableService servToDisable sent => exact .inl (onService_turned h hxs')
  | XplAddMessageListener theService reportMode reportGroupMessages listener =>
    exact .inl (onService_turned h hxs')
  | received theString => exact .inl (received_turned h hxs')
  | xplTick timerRead wdog sent =>
    left
    simp only [step, xplTick] at h
    split at h
    · cases h
    · cases timerRead with
      | false =>
        cases h
        exact ⟨xs', hxs', rfl⟩
      | true =>
        obtain ⟨servHead', hresult, rfl⟩ := map_ok h
        obtain ⟨xs, hxs, hturn⟩ := tickServices_turned hresult hxs'
        rw [Nat.zero_add] at hturn
        exact ⟨xs, hxs, hturn⟩

end XplEvent.Service
