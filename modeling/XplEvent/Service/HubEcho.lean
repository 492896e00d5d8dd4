import Mathlib.Algebra.Group.Nat.Defs
import XplEvent.Service.Interference
import XplEvent.Service.Lifecycle
import XplEvent.Wire.RoundTrip

/-!
# The echo of a service's own heartbeat

A service finds its hub by the heartbeat it has sent: the hub sends it
back, the decoder reads it, and the dispatcher takes a heartbeat whose
source is the service itself for the confirmation. Four components have to
agree on it, from the message that is built to the service that hears it.

The fields of a heartbeat are read through the decoder's buffers. A
version may hold characters the decoder changes; the source, which the
recognition depends on, does not. Once the hub is confirmed an echo is
read and changes nothing.
-/

namespace XplEvent.Service

open Wire

/-! ## Decimal numbers -/

theorem printDecimal_digits {n : Nat} {c : CChar} (h : c ∈ printDecimal n) :
    48 ≤ c ∧ c ≤ 57 := by
  obtain ⟨d, hd, rfl⟩ := List.mem_map.mp h
  have hdigit := Nat.isDigit_of_mem_toDigits (by decide) (by decide) hd
  have hrange : ∀ k < 58, 48 ≤ k → 48 ≤ Int8.ofNat k ∧ Int8.ofNat k ≤ 57 := by decide
  rw [Char.isDigit, Bool.and_eq_true, decide_eq_true_iff, decide_eq_true_iff] at hdigit
  have hlow : 48 ≤ d.toNat := hdigit.1
  have hhigh : d.toNat ≤ 57 := hdigit.2
  exact hrange d.toNat (by omega) hlow

theorem printDecimal_length {n k : Nat} (hk : 0 < k) (h : n < 10 ^ k) :
    (printDecimal n).length ≤ k := by
  rw [printDecimal, List.length_map]
  exact (Nat.length_toDigits_le_iff (by decide) hk).mpr h

/-! ## What a heartbeat is made of -/

/-- A lower-case letter or a digit. -/
def IsIdChar (c : CChar) : Prop := (97 ≤ c ∧ c ≤ 122) ∨ (48 ≤ c ∧ c ≤ 57)

instance (c : CChar) : Decidable (IsIdChar c) := inferInstanceAs (Decidable (_ ∨ _))

instance (s : CString) : Decidable (∀ c ∈ s, IsIdChar c) := List.decidableBAll IsIdChar s

/-- An identifier of 1 to `most` characters. -/
def IsId (most : Nat) (s : CString) : Prop :=
  (∀ c ∈ s, IsIdChar c) ∧ 1 ≤ s.length ∧ s.length ≤ most

instance (most : Nat) (s : CString) : Decidable (IsId most s) := inferInstanceAs (Decidable (_ ∧ _))

/-- A dotted IPv4 address. -/
def dotted (a b c d : Fin 256) : CString :=
  printDecimal a ++ cstr "." ++ printDecimal b ++ cstr "." ++ printDecimal c ++ cstr "." ++
    printDecimal d

/-- The parts of a heartbeat: the field sizes are those of xPL, the numbers
those of their C types. -/
structure HeartbeatParts (xp : XplObj) (xs : XplService) : Prop where
  vendor : IsId 8 xs.serviceVendor
  deviceID : IsId 8 xs.serviceDeviceID
  instanceID : IsId 16 xs.serviceInstanceID
  version : ∀ v, xs.serviceVersion = some v → (∀ c ∈ v, 32 ≤ c ∧ c ≤ 126) ∧ v.length ≤ 31
  port : xp.localConnPort < 65536
  remoteIP : ∃ a b c d, xp.remoteIP = dotted a b c d
  interval : xs.heartbeatInterval < 2 ^ 32

/-- The text of a heartbeat is accepted, and in the turn of the service it
is recognised as the service's own heartbeat and confirms the hub; the
timer is then at `timer`. -/
structure Echoes (xp : XplObj) (xs : XplService) (timer : Nat) : Prop where
  heard : ∃ text xm, formatMessage (createHeartbeatMessage xp xs .HBEAT_NORMAL) = .ok (some text) ∧
    parseMessage text = .ok (some xm) ∧
    (∃ xm' outcome go, serviceTurn xm xs = .ok (xm', outcome, go) ∧ xm'.isUs = true ∧
      xm'.messageClass = .XPL_MSG_CLASS_HEARTBEAT) ∧
    ∀ pre post, GoesOn xm pre → ∃ outcome,
      outcomeAt xm (pre ++ xs :: post) pre.length = .ok (some outcome) ∧
      outcome.1.discoveryState = .XPL_HUB_CONFIRMED ∧ outcome.1.heartbeatTimer = timer

/-! ## The heartbeat as a message -/

theorem IsIdChar.spec {c : CChar} (h : IsIdChar c) : Kept c ∧ c ≠ 45 ∧ c ≠ 46 := by
  unfold IsIdChar at h
  unfold Kept
  grind

theorem HeartbeatParts.tagFits {xp : XplObj} {xs : XplService} (h : HeartbeatParts xp xs)
    (hlen : (tagText xs.serviceVendor xs.serviceDeviceID xs.serviceInstanceID).length ≤ 31) :
    TagFits xs.serviceVendor xs.serviceDeviceID xs.serviceInstanceID where
  kept := by
    intro c hc
    rcases List.mem_append.mp hc with hc | hc
    · exact (h.vendor.1 c hc).spec.1
    · rcases List.mem_cons.mp hc with rfl | hc
      · decide
      · rcases List.mem_append.mp hc with hc | hc
        · exact (h.deviceID.1 c hc).spec.1
        · rcases List.mem_cons.mp hc with rfl | hc
          · decide
          · exact (h.instanceID.1 c hc).spec.1
  length := hlen
  vendor_cut := fun hc => (h.vendor.1 _ hc).spec.2.1 rfl
  deviceID_cut := fun hc => (h.deviceID.1 _ hc).spec.2.2 rfl

/-- A number makes a value. -/
theorem isValue_printDecimal {n k : Nat} (hk : 0 < k) (hle : k ≤ 31) (h : n < 10 ^ k) :
    IsValue (printDecimal n) := by
  refine ⟨fun hline => ?_, Nat.le_trans (printDecimal_length hk h) hle⟩
  exact absurd (printDecimal_digits hline).1 (by decide)

theorem dotted_spec (a b c d : Fin 256) : LF ∉ dotted a b c d ∧ (dotted a b c d).length ≤ 15 := by
  have hline : ∀ x : Fin 256, LF ∉ printDecimal x := by
    intro x hmem
    exact absurd (printDecimal_digits hmem).1 (by decide)
  have hlen : ∀ x : Fin 256, (printDecimal x).length ≤ 3 := by
    intro x
    exact printDecimal_length (by decide) (by omega)
  have hdot : LF ∉ cstr "." := by decide
  have hone : (cstr ".").length = 1 := rfl
  constructor
  · simp only [dotted, List.mem_append, not_or]
    exact ⟨⟨⟨⟨⟨⟨hline a, hdot⟩, hline b⟩, hdot⟩, hline c⟩, hdot⟩, hline d⟩
  · have ha := hlen a
    have hb := hlen b
    have hc := hlen c
    have hd := hlen d
    simp only [dotted, List.length_append, hone]
    omega

/-- The pairs of a heartbeat. -/
def heartbeatPairs (xp : XplObj) (xs : XplService) : List XplNameValueLE :=
  [⟨0, cstr "interval", some (printDecimal (xs.heartbeatInterval / 60))⟩,
    ⟨0, cstr "port", some (printDecimal xp.localConnPort)⟩,
    ⟨0, cstr "remote-ip", some xp.remoteIP⟩] ++
  xs.serviceVersion.toList.map fun version => ⟨0, cstr "version", some version⟩

/-- The heartbeat without its pairs. -/
def bareHeartbeat (xs : XplService) : XplMessage :=
  XplSetMessageClassType (createBroadcastMessage xs .XPL_MESSAGE_STATUS) (cstr "hbeat") (cstr "app")

theorem createHeartbeatMessage_eq (xp : XplObj) (xs : XplService) :
    createHeartbeatMessage xp xs .HBEAT_NORMAL =
      { bareHeartbeat xs with nvList := heartbeatPairs xp xs } := by
  unfold createHeartbeatMessage heartbeatPairs
  cases xs.serviceVersion with
  | none => rfl
  | some version => rfl

/-- The pairs of a heartbeat make lines. -/
theorem HeartbeatParts.lines {xp : XplObj} {xs : XplService} (h : HeartbeatParts xp xs) :
    ∀ le ∈ heartbeatPairs xp xs, IsLine le ∧ le.itemName.length ≤ 9 := by
  have hshort : ∀ s ∈ [cstr "interval", cstr "port", cstr "remote-ip", cstr "version"],
      (61 ∉ s ∧ 125 ∉ s) ∧ s.length ≤ 31 ∧ s.length ≤ 9 := by decide
  have hname : ∀ s ∈ [cstr "interval", cstr "port", cstr "remote-ip", cstr "version"],
      ((∀ c ∈ s, c ≠ 61 ∧ c ≠ 125) ∧ s.length ≤ 31) ∧ s.length ≤ 9 := by
    intro s hs
    obtain ⟨⟨hequals, hbrace⟩, hlen, hl⟩ := hshort s hs
    exact ⟨⟨fun c hc => ⟨ne_of_mem_of_not_mem hc hequals, ne_of_mem_of_not_mem hc hbrace⟩, hlen⟩, hl⟩
  intro le hle
  simp only [heartbeatPairs, List.cons_append, List.nil_append, List.mem_cons, List.mem_map,
    Option.mem_toList] at hle
  rcases hle with rfl | rfl | rfl | ⟨version, hversion, rfl⟩
  · have hinterval := h.interval
    obtain ⟨hn, hl⟩ := hname (cstr "interval") (by decide)
    exact ⟨⟨hn, isValue_printDecimal (k := 10) (by decide) (by decide) (by omega)⟩, hl⟩
  · have hport := h.port
    obtain ⟨hn, hl⟩ := hname (cstr "port") (by decide)
    exact ⟨⟨hn, isValue_printDecimal (k := 5) (by decide) (by decide) (by omega)⟩, hl⟩
  · obtain ⟨a, b, c, d, hip⟩ := h.remoteIP
    obtain ⟨hline, hlen⟩ := dotted_spec a b c d
    obtain ⟨hn, hl⟩ := hname (cstr "remote-ip") (by decide)
    refine ⟨⟨hn, ?_⟩, hl⟩
    rw [hip]
    exact ⟨hline, Nat.le_trans hlen (by decide)⟩
  · obtain ⟨hprint, hlen⟩ := h.version version hversion
    obtain ⟨hn, hl⟩ := hname (cstr "version") (by decide)
    refine ⟨⟨hn, fun hline => ?_, hlen⟩, hl⟩
    exact absurd (hprint _ hline).1 (by decide)

/-! ## Its text -/

theorem bareHeartbeat_fits {xp : XplObj} {xs : XplService} (h : HeartbeatParts xp xs)
    (hlen : (tagText xs.serviceVendor xs.serviceDeviceID xs.serviceInstanceID).length ≤ 31) :
    (bareHeartbeat xs).Fits where
  source := h.tagFits hlen
  target := fun hb => Bool.noConfusion hb
  schemaClass := show 46 ∉ cstr "hbeat" by decide
  schema := show HeaderFits (cstr "hbeat" ++ 46 :: cstr "app") by decide
  values := fun le hle => absurd hle List.not_mem_nil
  pairs := fun le hle => absurd hle List.not_mem_nil

theorem bareHeartbeat_complete (xs : XplService) : (bareHeartbeat xs).Complete where
  sourceVendor := rfl
  sourceDeviceID := rfl
  sourceInstanceID := rfl
  targetVendor := fun hb => Bool.noConfusion hb
  targetDeviceID := fun hb => Bool.noConfusion hb
  targetInstanceID := fun hb => Bool.noConfusion hb
  schemaClass := rfl
  schemaType := rfl

/-- The text of a heartbeat. -/
def heartbeatText (xp : XplObj) (xs : XplService) : CString :=
  blockText (cstr "xpl-stat") (bareHeartbeat xs).headerPairs ++
    blockText (bareHeartbeat xs).schemaText (heartbeatPairs xp xs)

theorem lines_length {nvList : List XplNameValueLE}
    (h : ∀ le ∈ nvList, IsLine le ∧ le.itemName.length ≤ 9) :
    (nvList.flatMap fun e => e.itemName ++ 61 :: e.itemValue.getD [] ++ [LF]).length ≤
      42 * nvList.length := by
  induction nvList with
  | nil => exact Nat.le_refl 0
  | cons le nvList ih =>
    have hrest := ih fun q hq => h q (List.mem_cons_of_mem le hq)
    obtain ⟨⟨-, -, hvalue⟩, hname⟩ := h le List.mem_cons_self
    simp only [List.flatMap_cons, List.length_append, List.length_cons, List.length_nil] at hrest ⊢
    omega

theorem heartbeatText_length {xp : XplObj} {xs : XplService} (h : HeartbeatParts xp xs)
    (hlen : (tagText xs.serviceVendor xs.serviceDeviceID xs.serviceInstanceID).length ≤ 31) :
    (heartbeatText xp xs).length < MSG_MAX_SIZE := by
  have hpairs := lines_length h.lines
  have hcount : (heartbeatPairs xp xs).length ≤ 4 := by
    unfold heartbeatPairs
    cases xs.serviceVersion with
    | none => exact Nat.le_succ 3
    | some v => exact Nat.le_refl 4
  have hheader : (blockText (cstr "xpl-stat") (bareHeartbeat xs).headerPairs).length =
      (tagText xs.serviceVendor xs.serviceDeviceID xs.serviceInstanceID).length + 36 := by
    have hhop : (cstr "hop").length = 3 := rfl
    have hone : (cstr "1").length = 1 := rfl
    have hsource : (cstr "source").length = 6 := rfl
    have htarget : (cstr "target").length = 6 := rfl
    have htext : (bareHeartbeat xs).targetText.length = 1 := rfl
    have hstat : (cstr "xpl-stat").length = 8 := rfl
    have htag : tagText ((bareHeartbeat xs).sourceVendor.getD [])
        ((bareHeartbeat xs).sourceDeviceID.getD []) ((bareHeartbeat xs).sourceInstanceID.getD []) =
        tagText xs.serviceVendor xs.serviceDeviceID xs.serviceInstanceID := rfl
    simp only [blockText, XplMessage.headerPairs, newNameValueListEntry, List.flatMap_cons,
      List.flatMap_nil, List.length_append, List.length_cons, List.length_nil, Option.getD_some,
      hhop, hone, hsource, htarget, htext, hstat, htag]
    omega
  have hschema : (bareHeartbeat xs).schemaText.length = 9 := rfl
  have hbody : (blockText (bareHeartbeat xs).schemaText (heartbeatPairs xp xs)).length ≤
      9 + 3 + 42 * 4 + 2 := by
    simp only [blockText, List.length_append, List.length_cons, List.length_nil, hschema] at hpairs ⊢
    omega
  rw [heartbeatText, List.length_append, hheader, MSG_MAX_SIZE]
  omega

theorem formatMessage_heartbeat {xp : XplObj} {xs : XplService} (h : HeartbeatParts xp xs)
    (hlen : (tagText xs.serviceVendor xs.serviceDeviceID xs.serviceInstanceID).length ≤ 31) :
    formatMessage (createHeartbeatMessage xp xs .HBEAT_NORMAL) =
      .ok (some (heartbeatText xp xs)) := by
  have hc : ({ bareHeartbeat xs with nvList := heartbeatPairs xp xs } : XplMessage).Complete :=
    { bareHeartbeat_complete xs with }
  rw [createHeartbeatMessage_eq]
  exact formatMessage_eq hc rfl (heartbeatText_length h hlen)

/-- The heartbeat as it is received. -/
def receivedHeartbeat (xp : XplObj) (xs : XplService) : XplMessage :=
  { (bareHeartbeat xs).received with nvList := (heartbeatPairs xp xs).map storedPair }

theorem parseMessage_heartbeat {xp : XplObj} {xs : XplService} (h : HeartbeatParts xp xs)
    (hlen : (tagText xs.serviceVendor xs.serviceDeviceID xs.serviceInstanceID).length ≤ 31) :
    parseMessage (heartbeatText xp xs) = .ok (some (receivedHeartbeat xp xs)) := by
  have hf := bareHeartbeat_fits h hlen
  refine parseMessage_twoBlocks hf (bareHeartbeat_complete xs) rfl fun blockHeader => ?_
  have hblock := parseBlock_lines hf.schema (fun le hle => (h.lines le hle).1) [] blockHeader
  rw [List.append_nil] at hblock
  exact hblock

/-! ## Hearing it -/

/-- A heartbeat that is heard by the service it came from. -/
theorem served_heartbeat (xp : XplObj) (xs : XplService) :
    served (receivedHeartbeat xp xs) xs =
      if xs.discoveryState = .XPL_HUB_CONFIRMED then xs
      else { xs with
        discoveryState := .XPL_HUB_CONFIRMED, heartbeatTimer := xs.heartbeatInterval } := by
  have hrequest : requestsHeartbeat (receivedHeartbeat xp xs) = false := by
    rfl
  have hown : (heard (receivedHeartbeat xp xs) xs).isUs = true :=
    (heard_isUs _ _).mpr ⟨rfl, rfl, rfl⟩
  have hclass : (heard (receivedHeartbeat xp xs) xs).messageClass = .XPL_MSG_CLASS_HEARTBEAT := rfl
  unfold served
  rw [hrequest, if_neg Bool.false_ne_true, confirmHub, hown, hclass]
  by_cases hconfirmed : xs.discoveryState = .XPL_HUB_CONFIRMED
  · rw [if_pos hconfirmed, if_neg fun hnew => hnew.2.1 hconfirmed]
  · rw [if_neg hconfirmed, if_pos ⟨rfl, hconfirmed, rfl⟩]

theorem receivedHeartbeat_not_request (xp : XplObj) (xs : XplService) :
    ¬ RequestWithoutCommand (receivedHeartbeat xp xs) := by
  rintro ⟨⟨-, htype⟩, -⟩
  exact absurd (Option.some.inj htype) (by decide)

/-- What a service is behind its turn for its own heartbeat. -/
theorem outcomeAt_heartbeat {xp : XplObj} {xs : XplService}
    (hwf : (receivedHeartbeat xp xs).WellFormed) {pre : List XplService}
    (hgo : GoesOn (receivedHeartbeat xp xs) pre) (post : List XplService) :
    ∃ outcome, outcomeAt (receivedHeartbeat xp xs) (pre ++ xs :: post) pre.length =
        .ok (some outcome) ∧
      outcome.1.discoveryState = .XPL_HUB_CONFIRMED ∧
      outcome.1.heartbeatTimer = if xs.discoveryState = .XPL_HUB_CONFIRMED then xs.heartbeatTimer
        else xs.heartbeatInterval := by
  refine ⟨_, outcomeAt_eq hwf (receivedHeartbeat_not_request xp xs) pre xs post, ?_⟩
  rw [if_pos ((all_go_on_iff _ pre).mpr hgo), turnOf_service, served_heartbeat]
  by_cases hconfirmed : xs.discoveryState = .XPL_HUB_CONFIRMED
  · rw [if_pos hconfirmed, if_pos hconfirmed]
    exact ⟨hconfirmed, rfl⟩
  · rw [if_neg hconfirmed, if_neg hconfirmed]
    exact ⟨rfl, rfl⟩

theorem tagText_length_le {vendor deviceID instanceID : CString}
    (h : vendor.length + deviceID.length + instanceID.length ≤ 29) :
    (tagText vendor deviceID instanceID).length ≤ 31 := by
  simp only [tagText, List.length_append, List.length_cons]
  omega

/-- **The echo of a heartbeat confirms the hub** and, if it was not
confirmed before, starts the timer at the interval. -/
theorem heartbeat_echoes {xp : XplObj} {xs : XplService} (h : HeartbeatParts xp xs)
    (hlen : xs.serviceVendor.length + xs.serviceDeviceID.length + xs.serviceInstanceID.length ≤ 29) :
    Echoes xp xs
      (if xs.discoveryState = .XPL_HUB_CONFIRMED then xs.heartbeatTimer
      else xs.heartbeatInterval) := by
  have htag := tagText_length_le hlen
  have hparse := parseMessage_heartbeat h htag
  have hwf := parseMessage_wellFormed hparse
  refine ⟨⟨_, _, formatMessage_heartbeat h htag, hparse, ?_, ?_⟩⟩
  · rw [serviceTurn_eq hwf, if_neg (receivedHeartbeat_not_request xp xs)]
    exact ⟨_, _, _, rfl, (heard_isUs _ _).mpr ⟨rfl, rfl, rfl⟩, rfl⟩
  · intro pre post hgo
    exact outcomeAt_heartbeat hwf hgo post

/-- A service without a version, as it is created. -/
theorem createService_parts {vendor deviceID instanceID : CString} (hv : IsId 8 vendor)
    (hd : IsId 8 deviceID) (hi : IsId 16 instanceID) :
    HeartbeatParts sampleObj (createService vendor deviceID instanceID none) where
  vendor := hv
  deviceID := hd
  instanceID := hi
  version := fun _ hversion => absurd hversion (Option.some_ne_none _).symm
  port := show 50000 < 65536 by decide
  remoteIP := ⟨10, 0, 0, 1, rfl⟩
  interval := show 300 < 2 ^ 32 by decide

/-- A service with short identifiers. -/
def shortService : XplService := createService (cstr "vendor") (cstr "device") (cstr "default") none

theorem shortService_echoes : Echoes sampleObj shortService 300 :=
  heartbeat_echoes (createService_parts (by decide) (by decide) (by decide))
    (show 6 + 6 + 7 ≤ 29 by decide)

/-- A service whose identifiers have the sizes of xPL. -/
def longService : XplService :=
  createService (cstr "abcdefgh") (cstr "ijklmnop") (cstr "qrstuvwxyz012345") none

set_option maxRecDepth 4000 in
/-- A source of 34 characters is not read back, and the timer of a service
that has its hub is not moved. -/
theorem heartbeat_not_echoed :
    (HeartbeatParts sampleObj longService ∧ ∀ timer, ¬ Echoes sampleObj longService timer) ∧
    (HeartbeatParts sampleObj { shortService with discoveryState := .XPL_HUB_CONFIRMED } ∧
      ¬ Echoes sampleObj { shortService with discoveryState := .XPL_HUB_CONFIRMED }
        shortService.heartbeatInterval) := by
  have hshort : HeartbeatParts sampleObj shortService :=
    createService_parts (by decide) (by decide) (by decide)
  have hparts : HeartbeatParts sampleObj
      { shortService with discoveryState := .XPL_HUB_CONFIRMED } := { hshort with }
  refine ⟨⟨createService_parts (by decide) (by decide) (by decide), ?_⟩, hparts, ?_⟩
  · rintro timer ⟨text, xm, hformat, hparse, -⟩
    have hread : ((formatMessage (createHeartbeatMessage sampleObj longService .HBEAT_NORMAL)).bind
        fun t => parseMessage (t.getD [])) = .ok none := rfl
    rw [hformat] at hread
    exact absurd (hparse.symm.trans hread) (by rintro ⟨⟩)
  · rintro ⟨text, xm, hformat, hparse, -, hheard⟩
    have htag : (tagText shortService.serviceVendor shortService.serviceDeviceID
        shortService.serviceInstanceID).length ≤ 31 := by decide
    have htext := Except.ok.inj (hformat.symm.trans (formatMessage_heartbeat hparts htag))
    cases htext
    have hread := parseMessage_heartbeat hparts htag
    have hxm := Except.ok.inj (hparse.symm.trans hread)
    cases hxm
    have hgo : ∀ xm, GoesOn xm [] := fun xm => .inr fun c hc => absurd hc List.not_mem_nil
    obtain ⟨outcome, hout, -, htimer⟩ := hheard [] [] (hgo _)
    obtain ⟨outcome', hout', -, htimer'⟩ :=
      outcomeAt_heartbeat (parseMessage_wellFormed hread) (hgo _) []
    have houtcome := Except.ok.inj (hout.symm.trans hout')
    cases houtcome
    exact absurd (htimer.symm.trans htimer') (by decide)

end XplEvent.Service
