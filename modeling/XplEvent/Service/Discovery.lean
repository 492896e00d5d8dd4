import XplEvent.Service.Turns

/-!
# The discovery of the hub

A service looks for its hub with short heartbeats until one of them comes
back. It counts the heartbeats it has sent, and after the last try sends
them at longer intervals. The counter, the state and the timer are written
by four operations: the heartbeat that is sent, the tick, the message that
is heard and the enabling of the service.
-/

namespace XplEvent.Service

open Wire Lib

/-- The counter, the state and the timer of a service in step. -/
structure Discovering (xs : XplService) : Prop where
  tries : xs.discoveryTries ≤ DISCOVERY_MAX_TRIES
  unconfirmed : xs.discoveryState = .XPL_HUB_UNCONFIRMED → xs.discoveryTries < DISCOVERY_MAX_TRIES
  noEcho : xs.discoveryState = .XPL_HUB_NO_ECHO → xs.discoveryTries = DISCOVERY_MAX_TRIES
  interval : xs.heartbeatInterval = DEFAULT_HEARTBEAT_INTERVAL
  timer : xs.heartbeatTimer ≤ xs.heartbeatInterval

/-- The discovery state, the counter and the timer are the same. -/
structure SameDiscovery (xs xs' : XplService) : Prop where
  state : xs'.discoveryState = xs.discoveryState
  tries : xs'.discoveryTries = xs.discoveryTries
  timer : xs'.heartbeatTimer = xs.heartbeatTimer

/-- A tick counts the timer down by one, or sends a heartbeat if it has
run out; a configurable service is passed over. -/
def Ticked (xs xs' : XplService) : Prop :=
  (xs.configurableService = true ∧ SameDiscovery xs xs') ∨
  (xs.heartbeatTimer = 0 ∧ ∃ xp sent out, sendHeartbeat xp xs sent = .ok (xs', out)) ∨
  xs.heartbeatTimer = xs'.heartbeatTimer + 1

/-- What a step that returns does to the discovery of the service at place
`i`. -/
structure DiscoveryStep (i : Nat) (xs xs' : XplService) (s : Step) : Prop where
  confirmed : xs.discoveryState = .XPL_HUB_CONFIRMED → xs'.discoveryState ≠ .XPL_HUB_CONFIRMED →
    xs.serviceEnabled = false ∧ ∃ sent, s = .XplEnableService i sent
  ticked : ∀ wdog sent, s = .xplTick true wdog sent → Ticked xs xs'

/-! ## The functions on a service -/

theorem discovering_createService (theVendor theDeviceID theInstanceID : CString)
    (theVersion : Option CString) :
    Discovering (createService theVendor theDeviceID theInstanceID theVersion) where
  tries := Nat.zero_le _
  unconfirmed := fun _ => show 0 < DISCOVERY_MAX_TRIES by decide
  noEcho := fun hstate => (nomatch hstate)
  interval := rfl
  timer := Nat.zero_le _

/-- A heartbeat that is sent counts as a try while the hub is looked
for. -/
theorem resetHeartbeatTimer_discovering {xs : XplService} (h : Discovering xs) :
    Discovering (resetHeartbeatTimer xs) := by
  have hinterval := h.interval
  have hshort : HUB_DISCOVERY_INTERVAL ≤ xs.heartbeatInterval := by
    rw [hinterval]
    decide
  have hlong : HUB_NO_ECHO_INTERVAL ≤ xs.heartbeatInterval := by
    rw [hinterval]
    decide
  unfold resetHeartbeatTimer
  split
  · rename_i hstate
    have hless := h.unconfirmed hstate
    simp only
    split
    · rename_i hlast
      have hcount : xs.discoveryTries + 1 = DISCOVERY_MAX_TRIES := Nat.le_antisymm hless hlast
      exact ⟨Nat.le_of_eq hcount, fun hb => (nomatch hb), fun _ => hcount, hinterval, hlong⟩
    · rename_i hmore
      have hcount : xs.discoveryTries + 1 < DISCOVERY_MAX_TRIES := Nat.lt_of_not_le hmore
      refine ⟨hless, fun _ => hcount, fun hb => ?_, hinterval, hshort⟩
      exact absurd (hstate.symm.trans hb) (by rintro ⟨⟩)
  · exact ⟨h.tries, h.unconfirmed, h.noEcho, hinterval, hlong⟩
  · exact ⟨h.tries, h.unconfirmed, h.noEcho, hinterval, Nat.le_refl _⟩

theorem sendHeartbeat_discovering {xp : XplObj} {xs xs' : XplService} {sent : Bool}
    {out : Option XplMessage} (h : Discovering xs)
    (hsend : sendHeartbeat xp xs sent = .ok (xs', out)) : Discovering xs' := by
  have hkept : Discovering { xs with heartbeatMessage := some (currentHeartbeat xp xs) } :=
    { h with }
  rcases sendHeartbeat_ok hsend with ⟨-, rfl⟩ | ⟨-, rfl⟩
  · exact hkept
  · exact resetHeartbeatTimer_discovering hkept

/-- **A heartbeat that does not go out** leaves the discovery as it is. -/
theorem sendHeartbeat_failed {xp : XplObj} {xs xs' : XplService} {sent : Bool}
    (hsend : sendHeartbeat xp xs sent = .ok (xs', none)) : SameDiscovery xs xs' := by
  rcases sendHeartbeat_ok hsend with ⟨-, rfl⟩ | ⟨hout, -⟩
  · exact ⟨rfl, rfl, rfl⟩
  · cases hout

/-- A confirmed hub stays confirmed when a heartbeat is sent. -/
theorem sendHeartbeat_confirmed {xp : XplObj} {xs xs' : XplService} {sent : Bool}
    {out : Option XplMessage} (h : xs.discoveryState = .XPL_HUB_CONFIRMED)
    (hsend : sendHeartbeat xp xs sent = .ok (xs', out)) :
    xs'.discoveryState = .XPL_HUB_CONFIRMED := by
  rcases sendHeartbeat_ok hsend with ⟨-, rfl⟩ | ⟨-, rfl⟩
  · exact h
  · simp only [resetHeartbeatTimer, h]

theorem setServiceState_discovering {xp : XplObj} {newState sent : Bool} {xs xs' : XplService}
    (h : Discovering xs) (hs : (setServiceState xp newState sent xs).2 = .ok xs') :
    Discovering xs' := by
  rcases setServiceState_ok hs with ⟨-, rfl⟩ | ⟨-, -, out, hsend⟩ | ⟨-, -, rfl⟩
  · exact h
  · refine sendHeartbeat_discovering ?_ hsend
    refine ⟨Nat.zero_le _, fun _ => ?_, fun hb => (nomatch hb), h.interval, h.timer⟩
    show 0 < DISCOVERY_MAX_TRIES
    decide
  · exact { h with }

theorem tickService_discovering {xp : XplObj} {sent : Bool} {xs xs' : XplService}
    (h : Discovering xs) (hs : (tickService xp sent xs).2 = .ok xs') : Discovering xs' := by
  rcases tickService_ok hs with ⟨-, rfl⟩ | ⟨-, -, out, hsend⟩ | ⟨-, -, rfl⟩
  · exact h
  · exact sendHeartbeat_discovering h hsend
  · exact ⟨h.tries, h.unconfirmed, h.noEcho, h.interval, Nat.le_trans (Nat.sub_le _ _) h.timer⟩

/-- A request sets the timer to 6 at most. -/
theorem requestHeartbeat_discovering {xs : XplService} (h : Discovering xs) :
    Discovering (requestHeartbeat xs) := by
  refine ⟨h.tries, h.unconfirmed, h.noEcho, h.interval, ?_⟩
  have hinterval : xs.heartbeatInterval = 300 := h.interval
  show (requestHeartbeat xs).heartbeatTimer ≤ xs.heartbeatInterval
  simp only [requestHeartbeat]
  split <;> omega

theorem confirmHub_discovering (xm : XplMessage) {xs : XplService} (h : Discovering xs) :
    Discovering (confirmHub xm xs) := by
  unfold confirmHub
  split
  · exact ⟨h.tries, fun hb => (nomatch hb), fun hb => (nomatch hb), h.interval, Nat.le_refl _⟩
  · exact h

theorem served_discovering (xm : XplMessage) {xs : XplService} (h : Discovering xs) :
    Discovering (served xm xs) := by
  unfold served
  apply confirmHub_discovering
  split
  · exact requestHeartbeat_discovering h
  · exact h

theorem confirmHub_confirmed (xm : XplMessage) {xs : XplService}
    (h : xs.discoveryState = .XPL_HUB_CONFIRMED) :
    (confirmHub xm xs).discoveryState = .XPL_HUB_CONFIRMED := by
  unfold confirmHub
  rw [if_neg fun hnew => hnew.2.1 h]
  exact h

theorem served_confirmed (xm : XplMessage) {xs : XplService}
    (h : xs.discoveryState = .XPL_HUB_CONFIRMED) :
    (served xm xs).discoveryState = .XPL_HUB_CONFIRMED := by
  unfold served
  apply confirmHub_confirmed
  split
  · exact h
  · exact h

/-! ## Runs -/

/-- What a step makes of a service keeps the discovery in step. -/
theorem turned_discovering {i : Nat} {xp : XplObj} {xs xs' : XplService} {s : Step}
    (h : Discovering xs) (hturn : Turned i xp xs xs' s) : Discovering xs' := by
  rcases turned_cases hturn with rfl | ⟨_, -, hs⟩ | ⟨_, -, hs⟩ | ⟨_, _, _, -, hs⟩ |
    ⟨_, _, -, hs⟩ | ⟨_, xm, -, -, rfl⟩
  · exact h
  · exact setServiceState_discovering h hs
  · exact setServiceState_discovering h hs
  · cases hs
    exact { h with }
  · exact tickService_discovering h hs
  · exact served_discovering xm h

/-- Only the enabling of a disabled service gives a hub up. -/
theorem turned_confirmed {i : Nat} {xp : XplObj} {xs xs' : XplService} {s : Step}
    (h : xs.discoveryState = .XPL_HUB_CONFIRMED) (hturn : Turned i xp xs xs' s)
    (hleft : xs'.discoveryState ≠ .XPL_HUB_CONFIRMED) :
    xs.serviceEnabled = false ∧ ∃ sent, s = .XplEnableService i sent := by
  rcases turned_cases hturn with rfl | ⟨sent, rfl, hs⟩ | ⟨_, -, hs⟩ | ⟨_, _, _, -, hs⟩ |
    ⟨_, _, -, hs⟩ | ⟨_, xm, -, -, rfl⟩
  · exact absurd h hleft
  · rcases setServiceState_ok hs with ⟨-, rfl⟩ | ⟨hoff, -, -⟩ | ⟨-, hb, -⟩
    · exact absurd h hleft
    · exact ⟨hoff, sent, rfl⟩
    · cases hb
  · rcases setServiceState_ok hs with ⟨-, rfl⟩ | ⟨-, hb, -⟩ | ⟨-, -, rfl⟩
    · exact absurd h hleft
    · cases hb
    · exact absurd h hleft
  · cases hs
    exact absurd h hleft
  · rcases tickService_ok hs with ⟨-, rfl⟩ | ⟨-, -, out, hsend⟩ | ⟨-, -, rfl⟩
    · exact absurd h hleft
    · exact absurd (sendHeartbeat_confirmed h hsend) hleft
    · exact absurd h hleft
  · exact absurd (served_confirmed xm h) hleft

theorem turned_ticked {i : Nat} {xp : XplObj} {xs xs' : XplService} {wdog : Bool}
    {sent : Nat → Bool} (hturn : Turned i xp xs xs' (.xplTick true wdog sent)) : Ticked xs xs' := by
  rcases tickService_ok hturn with ⟨hconf, rfl⟩ | ⟨-, hexpired, out, hsend⟩ | ⟨-, hpos, rfl⟩
  · exact .inl ⟨hconf, rfl, rfl, rfl⟩
  · exact .inr (.inl ⟨hexpired, _, _, out, hsend⟩)
  · exact .inr (.inr (Nat.succ_pred_eq_of_pos hpos).symm)

/-- Every service of the list has its discovery in step. -/
def AllDiscovering (xp : XplObj) : Prop :=
  ∀ (i : Nat) xs, xp.servHead[i]? = some xs → Discovering xs

/-- **A step keeps the discovery of every service in step.** -/
theorem step_discovering {xp xp' : XplObj} {s : Step} (h : AllDiscovering xp)
    (hs : (step xp s).2 = .ok xp') : AllDiscovering xp' := by
  intro i xs' hxs'
  rcases step_turned hs hxs' with ⟨xs, hxs, hturn⟩ | ⟨-, v, d, i', ver, rfl⟩
  · exact turned_discovering (h i xs hxs) hturn
  · exact discovering_createService v d i' ver

/-- **The discovery of the hub over every run**: in any state that a run
reaches the counter, the state and the timer of every service are in step;
a step from there gives a hub up only by enabling a disabled service, and
counts a timer down only from a positive one; a heartbeat that does not go
out changes none of the three. -/
theorem hub_discovery {xp xp' : XplObj} (hinit : xp.servHead = []) {steps : List Step}
    (hrun : (run step xp steps).2 = .ok xp') {i : Nat} {xs : XplService}
    (hxs : xp'.servHead[i]? = some xs) :
    Discovering xs ∧
    (∀ s xp'' xs', (step xp' s).2 = .ok xp'' → xp''.servHead[i]? = some xs' →
      DiscoveryStep i xs xs' s) ∧
    ∀ xp sent xs', sendHeartbeat xp xs sent = .ok (xs', none) → SameDiscovery xs xs' := by
  have hstart : AllDiscovering xp := by
    intro i xs hxs
    rw [hinit] at hxs
    cases hxs
  have hend : AllDiscovering xp' := by
    refine run_keeps ?_ (eachStep_of_mem (fun _ _ _ => trivial) xp) hrun hstart
    intro xp s xp' hxp _ hs
    exact step_discovering hxp hs
  refine ⟨hend i xs hxs, ?_, fun xp sent xs' hsend => sendHeartbeat_failed hsend⟩
  intro s xp'' xs' hs hxs'
  rcases step_turned hs hxs' with ⟨xs₀, hxs₀, hturn⟩ | ⟨hnone, -⟩
  · rw [hxs] at hxs₀
    cases hxs₀
    refine ⟨fun hconfirmed hleft => turned_confirmed hconfirmed hturn hleft, ?_⟩
    rintro wdog sent rfl
    exact turned_ticked hturn
  · rw [hxs] at hnone
    cases hnone

/-- A new service behind its first heartbeat. -/
def firstTry : XplService :=
  let xs := restarted (createService (cstr "v") (cstr "d") (cstr "i") none)
  resetHeartbeatTimer { xs with heartbeatMessage := some (currentHeartbeat sampleObj xs) }

set_option maxRecDepth 4000 in
theorem firstTry_discovering : Discovering firstTry := by
  have hrun : (run step sampleObj [.XplNewService (cstr "v") (cstr "d") (cstr "i") none,
      .XplEnableService 0 true]).2 = .ok { sampleObj with servHead := [firstTry] } := rfl
  have hxs : [firstTry][0]? = some firstTry := rfl
  exact (hub_discovery rfl hrun hxs).1

end XplEvent.Service
