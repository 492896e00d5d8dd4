import XplEvent.Service.Turns

/-!
# The heartbeats of an enabled service

The timer of a service counts ticks down to its next heartbeat. What is
received moves the timer too: a heartbeat of its own that comes back
confirms the hub and starts the timer anew, and a request for a heartbeat
is to bring the heartbeat forward.

The ticks since the last attempt and the ticks still to come never make
more than an interval before the hub is confirmed, and two after it. A
request that finds the timer at 0 or 1 is the exception: it sets the
timer back by two ticks, and requests that come often enough put the
heartbeat off for ever.
-/

namespace XplEvent.Service

open Wire Lib

/-! ## The ticks since an attempt -/

/-- The step attempts a heartbeat of the service at place `i`. -/
def Attempts (i : Nat) (xs : XplService) : Step → Bool
  | .XplEnableService servToEnable _ => servToEnable = i ∧ xs.serviceEnabled = false
  | .xplTick timerRead _ _ =>
    timerRead ∧ xs.configurableService = false ∧ xs.heartbeatTimer = 0
  | _ => false

/-- The step is a tick. A call that finds nothing to read at the timer is
none. -/
def Ticks : Step → Bool
  | .xplTick timerRead _ _ => timerRead
  | _ => false

/-- The ticks since the last attempt for the service at place `i`, behind
a step. -/
def sinceAttempt (i : Nat) (xp : XplObj) (s : Step) (n : Nat) : Nat :=
  match xp.servHead[i]? with
  | none => 0
  | some xs => if Attempts i xs s then 0 else if Ticks s then n + 1 else n

/-- The system with the ticks counted that the service at place `i` waits
for its heartbeat. -/
def countedStep (i : Nat) (c : XplObj × Nat) (s : Step) :
    List (Nat × ServiceEvent) × Except Fault (XplObj × Nat) :=
  let (es, result) := step c.1 s
  (es, result.map fun xp => (xp, sinceAttempt i c.1 s c.2))

/-- The bound on the wait of an enabled service. -/
def NotStarved (i : Nat) (c : XplObj × Nat) : Prop :=
  ∀ xs, c.1.servHead[i]? = some xs → xs.serviceEnabled = true →
    c.2 ≤ 2 * xs.heartbeatInterval + HUB_NO_ECHO_INTERVAL

/-- A step that does not set the timer of the service at place `i` back:
no request for a heartbeat finds it enabled with its timer at 0 or 1. -/
def Unhindered (i : Nat) (c : XplObj × Nat) : Step → Prop
  | .received theString => ∀ xm, Takes i c.1 theString xm → requestsHeartbeat xm = true →
    ∀ xs, c.1.servHead[i]? = some xs → xs.serviceEnabled = true → 2 ≤ xs.heartbeatTimer
  | _ => True

/-! ## The pace of a service -/

/-- What the timer can be set to. -/
def longest (xs : XplService) : Nat := max HUB_NO_ECHO_INTERVAL xs.heartbeatInterval

/-- The confirmation of the hub starts the timer once more. -/
def extension (xs : XplService) : Nat :=
  if xs.discoveryState = .XPL_HUB_CONFIRMED then xs.heartbeatInterval else 0

/-- The pace a service keeps, with `n` ticks since its last attempt. -/
structure Paced (xs : XplService) (n : Nat) : Prop where
  plain : xs.configurableService = false
  timer : xs.heartbeatTimer ≤ longest xs
  wait : xs.serviceEnabled = true → n + xs.heartbeatTimer ≤ longest xs + extension xs

theorem Paced.notStarved {xs : XplService} {n : Nat} (h : Paced xs n)
    (hon : xs.serviceEnabled = true) :
    n ≤ 2 * xs.heartbeatInterval + HUB_NO_ECHO_INTERVAL := by
  have hwait := h.wait hon
  have hlongest : longest xs ≤ HUB_NO_ECHO_INTERVAL + xs.heartbeatInterval := by
    unfold longest
    omega
  have hextension : extension xs ≤ xs.heartbeatInterval := by
    unfold extension
    split <;> omega
  omega

/-- A service as it is created waits for nothing. -/
theorem paced_createService (theVendor theDeviceID theInstanceID : CString)
    (theVersion : Option CString) :
    Paced (createService theVendor theDeviceID theInstanceID theVersion) 0 where
  plain := rfl
  timer := Nat.zero_le _
  wait := fun _ => Nat.zero_le _

/-- Behind a heartbeat the timer is at one of three intervals. -/
theorem resetHeartbeatTimer_paced {xs : XplService} (hplain : xs.configurableService = false) :
    Paced (resetHeartbeatTimer xs) 0 := by
  have hpaced : ∀ xs' : XplService, xs'.configurableService = false →
      xs'.heartbeatTimer ≤ longest xs' → Paced xs' 0 := by
    intro xs' hplain' htimer
    exact ⟨hplain', htimer, fun _ => by omega⟩
  unfold resetHeartbeatTimer
  cases xs.discoveryState with
  | XPL_HUB_UNCONFIRMED =>
    simp only
    split
    · apply hpaced
      · exact hplain
      · exact Nat.le_max_left _ _
    · apply hpaced
      · exact hplain
      · have hshort : HUB_DISCOVERY_INTERVAL ≤ HUB_NO_ECHO_INTERVAL := by decide
        exact Nat.le_trans hshort (Nat.le_max_left _ _)
  | XPL_HUB_NO_ECHO =>
    apply hpaced
    · exact hplain
    · exact Nat.le_max_left _ _
  | XPL_HUB_CONFIRMED =>
    apply hpaced
    · exact hplain
    · exact Nat.le_max_right _ _

/-- An attempt, whether the socket takes it or not, starts the count. -/
theorem sendHeartbeat_paced {xp : XplObj} {xs xs' : XplService} {sent : Bool}
    {out : Option XplMessage} (hplain : xs.configurableService = false)
    (htimer : xs.heartbeatTimer ≤ longest xs) (h : sendHeartbeat xp xs sent = .ok (xs', out)) :
    Paced xs' 0 := by
  rcases sendHeartbeat_ok h with ⟨-, rfl⟩ | ⟨-, rfl⟩
  · refine ⟨hplain, htimer, fun _ => ?_⟩
    show 0 + xs.heartbeatTimer ≤ longest xs + _
    omega
  · apply resetHeartbeatTimer_paced
    exact hplain

theorem setServiceState_paced {xp : XplObj} {newState sent : Bool} {xs xs' : XplService} {n : Nat}
    (h : Paced xs n) (hs : (setServiceState xp newState sent xs).2 = .ok xs') :
    Paced xs' (if newState = true ∧ xs.serviceEnabled = false then 0 else n) := by
  rcases setServiceState_ok hs with ⟨hsame, rfl⟩ | ⟨hoff, rfl, out, hsend⟩ | ⟨-, rfl, rfl⟩
  · rw [if_neg]
    · exact h
    · rintro ⟨hon, hoff⟩
      rw [hsame, hon] at hoff
      cases hoff
  · rw [if_pos ⟨rfl, hoff⟩]
    refine sendHeartbeat_paced ?_ ?_ hsend
    · exact h.plain
    · exact h.timer
  · rw [if_neg (fun hon => Bool.false_ne_true hon.1)]
    exact ⟨h.plain, h.timer, fun hon => absurd hon Bool.false_ne_true⟩

theorem tickService_paced {xp : XplObj} {sent : Bool} {xs xs' : XplService} {n : Nat}
    (h : Paced xs n) (hs : (tickService xp sent xs).2 = .ok xs') :
    Paced xs' (if xs.heartbeatTimer = 0 then 0 else n + 1) := by
  rcases tickService_ok hs with ⟨hconf, -⟩ | ⟨-, hexpired, out, hsend⟩ | ⟨-, hpos, rfl⟩
  · rw [h.plain] at hconf
    cases hconf
  · rw [if_pos hexpired]
    exact sendHeartbeat_paced h.plain h.timer hsend
  · rw [if_neg (by omega)]
    have htimer := h.timer
    refine ⟨h.plain, ?_, fun hon => ?_⟩
    · show xs.heartbeatTimer - 1 ≤ longest xs
      omega
    · have hwait := h.wait hon
      show n + 1 + (xs.heartbeatTimer - 1) ≤ longest xs + extension xs
      omega

/-- A request that finds at least two ticks left does not put the
heartbeat off. -/
theorem requestHeartbeat_paced {xs : XplService} {n : Nat} (h : Paced xs n)
    (hdue : xs.serviceEnabled = true → 2 ≤ xs.heartbeatTimer) : Paced (requestHeartbeat xs) n := by
  have htimer := h.timer
  have hleast : HUB_NO_ECHO_INTERVAL ≤ longest xs := Nat.le_max_left _ _
  refine ⟨h.plain, ?_, fun hon => ?_⟩
  · show (requestHeartbeat xs).heartbeatTimer ≤ longest xs
    simp only [requestHeartbeat, HUB_NO_ECHO_INTERVAL] at hleast ⊢
    split <;> omega
  · have hwait := h.wait hon
    have hleft := hdue hon
    show n + (requestHeartbeat xs).heartbeatTimer ≤ longest xs + extension xs
    simp only [requestHeartbeat]
    split <;> omega

/-- The confirmation of the hub makes the wait longer by an interval. -/
theorem confirmHub_paced (xm : XplMessage) {xs : XplService} {n : Nat} (h : Paced xs n) :
    Paced (confirmHub xm xs) n := by
  unfold confirmHub
  split
  · rename_i hnew
    refine ⟨h.plain, Nat.le_max_right _ _, fun hon => ?_⟩
    have hwait := h.wait hon
    rw [extension, if_neg hnew.2.1] at hwait
    show n + xs.heartbeatInterval ≤ longest xs + xs.heartbeatInterval
    omega
  · exact h

theorem served_paced {xm : XplMessage} {xs : XplService} {n : Nat} (h : Paced xs n)
    (hdue : requestsHeartbeat xm = true → xs.serviceEnabled = true → 2 ≤ xs.heartbeatTimer) :
    Paced (served xm xs) n := by
  unfold served
  apply confirmHub_paced
  split
  · rename_i hrequest
    exact requestHeartbeat_paced h (hdue hrequest)
  · exact h

/-! ## Runs -/

/-- The service at place `i` keeps its pace, if it is there; the count of
one that is not is 0. -/
def PacedAt (i : Nat) (c : XplObj × Nat) : Prop :=
  ∀ xs, c.1.servHead[i]? = some xs → Paced xs c.2

/-- What a step makes of a service keeps the pace. -/
theorem turned_paced {i n : Nat} {xp : XplObj} {xs xs' : XplService} {s : Step}
    (hxs : xp.servHead[i]? = some xs) (h : Paced xs n) (hs : Unhindered i (xp, n) s)
    (hturn : Turned i xp xs xs' s) : Paced xs' (sinceAttempt i xp s n) := by
  rw [sinceAttempt, hxs]
  cases s with
  | XplNewService theVendor theDeviceID theInstanceID theVersion =>
    cases hturn
    exact h
  | XplEnableService servToEnable sent =>
    simp only [Turned] at hturn
    by_cases hown : servToEnable = i
    · rw [if_pos hown] at hturn
      simpa [Attempts, Ticks, hown] using setServiceState_paced h hturn
    · rw [if_neg hown] at hturn
      cases hturn
      simpa [Attempts, Ticks, hown] using h
  | XplDisableService servToDisable sent =>
    simp only [Turned] at hturn
    split at hturn
    · simpa [Attempts, Ticks] using setServiceState_paced h hturn
    · cases hturn
      exact h
  | XplAddMessageListener theService reportMode reportGroupMessages listener =>
    simp only [Turned] at hturn
    split at hturn
    · cases hturn
      exact ⟨h.plain, h.timer, h.wait⟩
    · cases hturn
      exact h
  | xplTick timerRead wdog sent =>
    cases timerRead with
    | false =>
      cases hturn
      exact h
    | true =>
      simpa [Attempts, Ticks, h.plain] using tickService_paced h hturn
  | received theString =>
    rcases hturn with rfl | ⟨xm, htakes, rfl⟩
    · exact h
    · apply served_paced h
      intro hrequest hon
      exact hs xm htakes hrequest xs hxs hon

/-- **An unhindered step keeps the pace.** -/
theorem countedStep_paced {i : Nat} {c c' : XplObj × Nat} {s : Step} (h : PacedAt i c)
    (hs : Unhindered i c s) (hstep : (countedStep i c s).2 = .ok c') : PacedAt i c' := by
  obtain ⟨xp, n⟩ := c
  obtain ⟨xp', hresult, rfl⟩ := map_ok hstep
  intro xs' hxs'
  rcases step_turned hresult hxs' with ⟨xs, hxs, hturn⟩ | ⟨hnone, v, d, i', ver, rfl⟩
  · exact turned_paced hxs (h xs hxs) hs hturn
  · show Paced _ (sinceAttempt i xp s n)
    rw [sinceAttempt, hnone]
    exact paced_createService v d i' ver

/-- **No enabled service is starved in a run that no request hinders**,
in any state the run reaches. -/
theorem notStarved_of_unhindered {xp : XplObj} (hinit : xp.servHead = []) {i : Nat}
    {steps : List Step} (h : EachStep (countedStep i) (Unhindered i) (xp, 0) steps)
    {c : XplObj × Nat} (hrun : (run (countedStep i) (xp, 0) steps).2 = .ok c) :
    NotStarved i c := by
  have hstart : PacedAt i (xp, 0) := by
    intro xs hxs
    rw [hinit] at hxs
    cases hxs
  have hend : PacedAt i c :=
    run_keeps (fun c s c' hc hs hstep => countedStep_paced hc hs hstep) h hrun hstart
  intro xs hxs hon
  exact (hend xs hxs).notStarved hon

/-! ## A request for every tick -/

/-- A heartbeat request with its command. -/
def requestText : CString :=
  cstr "xpl-cmnd\n\x7b\nhop=1\nsource=a-b.c\ntarget=*\n\x7d\nhbeat.request\n\x7b\ncommand=request\n\x7d\n"

/-- The message of `requestText`. -/
def requestMessage : XplMessage :=
  { createReceivedMessage .XPL_MESSAGE_COMMAND with
    hopCount := 1
    sourceVendor := some (cstr "a")
    sourceDeviceID := some (cstr "b")
    sourceInstanceID := some (cstr "c")
    isBroadcastMessage := true
    schemaClass := some (cstr "hbeat")
    schemaType := some (cstr "request")
    nvList := [newNameValueListEntry (cstr "command") (cstr "request")] }

theorem parseMessage_requestText : parseMessage requestText = .ok (some requestMessage) := by
  rfl

/-- A new service behind its first heartbeat. -/
def startedService : XplService :=
  { createService (cstr "v") (cstr "d") (cstr "i") none with
    serviceEnabled := true
    heartbeatTimer := HUB_DISCOVERY_INTERVAL
    discoveryTries := 1
    heartbeatMessage := some (createHeartbeatMessage sampleObj
      (createService (cstr "v") (cstr "d") (cstr "i") none) .HBEAT_NORMAL) }

/-- A process with that service, its timer at `timer` and `n` ticks
counted. -/
def started (xp : XplObj) (timer n : Nat) : XplObj × Nat :=
  ({ xp with servHead := [{ startedService with heartbeatTimer := timer }] }, n)

/-- A service is created and enabled. -/
def startSteps : List Step :=
  [.XplNewService (cstr "v") (cstr "d") (cstr "i") none, .XplEnableService 0 true]

set_option maxRecDepth 4000 in
theorem run_startSteps :
    (run (countedStep 0) (sampleObj, 0) startSteps).2 = .ok (started sampleObj 3 0) := by
  rfl

theorem countedStep_tick (xp : XplObj) (timer n : Nat) :
    (countedStep 0 (started xp (timer + 1) n) (.xplTick true true fun _ => true)).2 =
      .ok (started { xp with ticks := xp.ticks + 1 } timer (n + 1)) := by
  have hturn : ∀ xp : XplObj, tickService xp true { startedService with heartbeatTimer := timer + 1 } =
      ([], .ok { startedService with heartbeatTimer := timer }) := fun _ => rfl
  have hsince : sinceAttempt 0 (started xp (timer + 1) n).1 (.xplTick true true fun _ => true) n =
      n + 1 := rfl
  rw [countedStep, show (started xp (timer + 1) n).2 = n from rfl, hsince]
  simp only [started, step, xplTick, tickServices, hturn, not_true_eq_false, and_false, if_false,
    Except.map]

theorem countedStep_request (xp : XplObj) (timer n : Nat) :
    (countedStep 0 (started xp timer n) (.received requestText)).2 =
      .ok (started xp (if timer % 7 < 2 then timer % 7 + 2 else timer % 7) n) := by
  have hdispatch : dispatch requestMessage (started xp timer n).1.servHead =
      .ok ((started xp timer n).1.servHead.map fun cse => (requestHeartbeat cse, none)) := by
    rfl
  simp only [countedStep, step, received, parseMessage_requestText, hdispatch]
  rfl

/-- A request that comes with three ticks to go leaves them. -/
theorem startSteps_notStarved : NotStarved 0 (started sampleObj 3 0) := by
  have hrun : (run (countedStep 0) (sampleObj, 0) (startSteps ++ [.received requestText])).2 =
      .ok (started sampleObj 3 0) :=
    (run_append run_startSteps _).trans (run_cons (countedStep_request sampleObj 3 0) [])
  apply notStarved_of_unhindered rfl _ hrun
  refine ⟨trivial, trivial, ?_, trivial⟩
  intro xm htakes hrequest xs hxs hon
  cases hxs
  decide

/-- Two ticks, each with a request behind it. -/
def requestedTicks : List Step :=
  [.xplTick true true fun _ => true, .received requestText,
    .xplTick true true fun _ => true, .received requestText]

/-- The requests bring the timer back to where it was. -/
theorem run_requestedTicks (xp : XplObj) (n : Nat) :
    (run (countedStep 0) (started xp 3 n) requestedTicks).2 =
      .ok (started { xp with ticks := xp.ticks + 2 } 3 (n + 2)) := by
  have hfirst := run_cons (countedStep_tick xp 2 n) requestedTicks.tail
  have hsecond := run_cons (countedStep_request { xp with ticks := xp.ticks + 1 } 2 (n + 1))
    (requestedTicks.drop 2)
  have hthird := run_cons (countedStep_tick { xp with ticks := xp.ticks + 1 } 1 (n + 1))
    (requestedTicks.drop 3)
  have hlast := countedStep_request { xp with ticks := xp.ticks + 2 } 1 (n + 2)
  exact hfirst.trans (hsecond.trans (hthird.trans (run_cons hlast [])))

/-- The service waits as long as the requests go on. -/
theorem run_requested (k : Nat) (xp : XplObj) (n : Nat) : ∃ xp',
    (run (countedStep 0) (started xp 3 n) (List.replicate k requestedTicks).flatten).2 =
      .ok (started xp' 3 (n + 2 * k)) := by
  induction k generalizing xp n with
  | zero => exact ⟨xp, rfl⟩
  | succ k ih =>
    obtain ⟨xp', hrest⟩ := ih { xp with ticks := xp.ticks + 2 } (n + 2)
    refine ⟨xp', ?_⟩
    rw [List.replicate_succ, List.flatten_cons, run_append (run_requestedTicks xp n), hrest,
      show n + 2 + 2 * k = n + 2 * (k + 1) by omega]

/-- A request for every tick puts the heartbeat off for longer than any
bound. -/
theorem requested_starved : ¬ ∀ xp : XplObj, xp.servHead = [] → ∀ i steps c,
    (run (countedStep i) (xp, 0) steps).2 = .ok c → NotStarved i c := by
  intro h
  obtain ⟨xp', hrun⟩ := run_requested 331 sampleObj 0
  have hlong := (run_append run_startSteps (List.replicate 331 requestedTicks).flatten).trans hrun
  have hbound : 662 ≤ 2 * DEFAULT_HEARTBEAT_INTERVAL + HUB_NO_ECHO_INTERVAL :=
    h sampleObj rfl 0 _ _ hlong _ rfl rfl
  exact absurd hbound (by decide)

end XplEvent.Service
