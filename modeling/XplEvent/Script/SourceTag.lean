import XplEvent.Script.Trigger

/-!
# `checkTriggerMessage` — the tag of a trigger message

A trigger message is looked up, and logged, under a tag: its source, and
behind a colon which of its devices it is about. If the database has a
script `preprocess`, the script finds that out; if not, there are three
schemas with a name of their own for it.

The variable for it is assigned in the branches of those schemas only and
read for every schema. What a message of another schema is looked up under
is up to what the stack held there (`usesTag_iff`).
-/

namespace XplEvent.Script

open Lib Wire

/-- What the stack holds where a pointer has not been assigned: `NULL`, the
address of some string, or no address. -/
inductive Unassigned
  | null
  | string (s : CString)
  | wild

/-- The pointer is tested and the string read. -/
def Unassigned.read : Unassigned → Except Fault (Option CString)
  | null => .ok none
  | string s => .ok (some s)
  | wild => .error .outOfBounds

/-- What `snprintf` leaves in a buffer of `size` characters. -/
def snprintf (size : Nat) (text : CString) : CString := text.take (size - 1)

/-- The source, and the sub-address if there is one. Each of the two writes
stays below 64, and the buffer has 96. -/
def makeSource (vendor device instanceId : CString) (subAddress : Option CString) : CString :=
  let source := snprintf 63 (vendor ++ cstr "-" ++ device ++ cstr "." ++ instanceId)
  match subAddress with
  | none => source
  | some subAddress => source ++ snprintf 31 (cstr ":" ++ subAddress)

/-- The canned handling of the sub-address: `subAddress` is what it was
where neither test succeeds. -/
def cannedSubAddress (subAddress : Unassigned) (theMessage : XplMessage) (schema : CString) :
    Except Fault (Option CString) :=
  if schema = cstr "sensor.basic" then XplGetMessageValueByName theMessage (cstr "device")
  else if schema = cstr "hvac.zone" ∨ schema = cstr "security.gateway" then
    XplGetMessageValueByName theMessage (cstr "zone")
  else subAddress.read

section

variable {D σ P : Type} (env : Env D σ) (mode : Mode) (L : Lemon P)

/-- `checkTriggerMessage` to where `source` is made. The world is changed
by the `preprocess` script. -/
def triggerSource (subAddress : Unassigned) (theMessage : XplMessage)
    (pScript : Option ScriptInput) (fuel : Nat) (world : σ) :
    Option (Except Fault (CString × σ)) :=
  match XplGetMessageSourceTagComponents theMessage, XplGetMessageSchema theMessage with
  | .error f, _ => some (.error f)
  | _, .error f => some (.error f)
  | .ok (vendor, device, instanceId), .ok (schemaClass, schemaType) =>
    let schema := snprintf 63 (schemaClass ++ cstr "." ++ schemaType)
    match pScript with
    | none => some do
      let subAddress ← cannedSubAddress subAddress theMessage schema
      return (makeSource vendor device instanceId subAddress, world)
    | some pScript =>
      (trigExec env mode L theMessage pScript fuel world).map fun res => do
        let (_, st) ← res
        let subAddress := (ParserHashGetValue env mode st (cstr "result") (cstr "subaddress")).1
        return (makeSource vendor device instanceId subAddress, st.world)

/-- The script for a source is looked up and run; the source device is
returned, to be logged. -/
def actOnSource (DBFetchScriptByTag : CString → Option ScriptInput) (theMessage : XplMessage)
    (source : CString) (fuel : Nat) (world : σ) : Option (Except Fault (CString × σ)) :=
  match DBFetchScriptByTag source with
  | none => some (.ok (source, world))
  | some script =>
    (trigExec env mode L theMessage script fuel world).map fun res => do
      let (_, st) ← res
      return (source, st.world)

/-- `checkTriggerMessage`, with the scripts of the database by name and by
tag. -/
def checkTriggerMessage (DBFetchScript DBFetchScriptByTag : CString → Option ScriptInput)
    (subAddress : Unassigned) (theMessage : XplMessage) (fuel : Nat) (world : σ) :
    Option (Except Fault (CString × σ)) :=
  match triggerSource env mode L subAddress theMessage (DBFetchScript (cstr "preprocess")) fuel
      world with
  | none => none
  | some (.error f) => some (.error f)
  | some (.ok (source, world)) =>
    actOnSource env mode L DBFetchScriptByTag theMessage source fuel world

end

/-! ## The tag a message should have -/

/-- What the schema names, if the message has it. -/
def subAddressOf (xm : XplMessage) : Option CString :=
  if schemaText xm = cstr "sensor.basic" then firstValue xm (cstr "device")
  else if schemaText xm = cstr "hvac.zone" ∨ schemaText xm = cstr "security.gateway" then
    firstValue xm (cstr "zone")
  else none

/-- `V-D.I`, and the sub-address behind a colon. -/
def sourceTag (xm : XplMessage) : CString :=
  sourceText xm ++ (subAddressOf xm).elim [] (cstr ":" ++ ·)

/-- The source and the sub-address have the lengths that are provided for. -/
structure TagFitsBuffer (xm : XplMessage) : Prop where
  vendor : (xm.sourceVendor.getD []).length ≤ 20
  device : (xm.sourceDeviceID.getD []).length ≤ 20
  instanceId : (xm.sourceInstanceID.getD []).length ≤ 20
  subAddress : ∀ s, subAddressOf xm = some s → s.length ≤ 29

/-- Without a `preprocess` script, a message is looked up and logged under
its tag, whatever the stack holds. -/
def UsesTag {D σ P : Type} (env : Env D σ) (mode : Mode) (L : Lemon P) (xm : XplMessage)
    (world : σ) : Prop :=
  ∀ DBFetchScript DBFetchScriptByTag subAddress fuel, DBFetchScript (cstr "preprocess") = none →
    checkTriggerMessage env mode L DBFetchScript DBFetchScriptByTag subAddress xm fuel world =
      actOnSource env mode L DBFetchScriptByTag xm (sourceTag xm) fuel world

/-- The three schemas with a name for the sub-address. -/
def hasSubAddress (xm : XplMessage) : Prop :=
  schemaText xm ∈ [cstr "sensor.basic", cstr "hvac.zone", cstr "security.gateway"]

instance (xm : XplMessage) : Decidable (hasSubAddress xm) :=
  inferInstanceAs (Decidable (schemaText xm ∈ _))

/-! ## The tag it has -/

theorem snprintf_eq_self {size : Nat} {text : CString} (h : text.length < size) :
    snprintf size text = text := by
  apply List.take_of_length_le
  omega

/-- A text that is cut off is not a short one. -/
theorem snprintf_eq_iff {size : Nat} {text short : CString} (h : short.length + 1 < size) :
    snprintf size text = short ↔ text = short := by
  constructor
  · intro heq
    by_cases hfits : text.length < size
    · rwa [snprintf_eq_self hfits] at heq
    · have hlen := congrArg List.length heq
      rw [snprintf, List.length_take] at hlen
      omega
  · rintro rfl
    exact snprintf_eq_self (by omega)

theorem makeSource_eq {vendor device instanceId : CString} {subAddress : Option CString}
    (hv : vendor.length ≤ 20) (hd : device.length ≤ 20) (hi : instanceId.length ≤ 20)
    (hs : ∀ s, subAddress = some s → s.length ≤ 29) :
    makeSource vendor device instanceId subAddress =
      vendor ++ cstr "-" ++ device ++ cstr "." ++ instanceId ++
        subAddress.elim [] (cstr ":" ++ ·) := by
  have hsource : (vendor ++ cstr "-" ++ device ++ cstr "." ++ instanceId).length < 63 := by
    simp only [List.length_append]
    have hdash : (cstr "-").length = 1 := rfl
    have hdot : (cstr ".").length = 1 := rfl
    omega
  unfold makeSource
  rw [snprintf_eq_self hsource]
  cases subAddress with
  | none => exact (List.append_nil _).symm
  | some s =>
    have hshort : (cstr ":" ++ s).length < 31 := by
      have hcolon : (cstr ":").length = 1 := rfl
      have hlen := hs s rfl
      rw [List.length_append]
      omega
    show _ ++ snprintf 31 (cstr ":" ++ s) = _
    rw [snprintf_eq_self hshort]
    rfl

/-- Without a `preprocess` script the sub-address decides. -/
theorem checkTriggerMessage_eq {D σ P : Type} (env : Env D σ) (mode : Mode) (L : Lemon P)
    {xm : XplMessage} (h : xm.WellFormed) {DBFetchScript : CString → Option ScriptInput}
    (hpre : DBFetchScript (cstr "preprocess") = none)
    (DBFetchScriptByTag : CString → Option ScriptInput) (subAddress : Unassigned) (fuel : Nat)
    (world : σ) :
    checkTriggerMessage env mode L DBFetchScript DBFetchScriptByTag subAddress xm fuel world =
      match cannedSubAddress subAddress xm (snprintf 63 (schemaText xm)) with
      | .error f => some (.error f)
      | .ok subAddress => actOnSource env mode L DBFetchScriptByTag xm
          (makeSource (xm.sourceVendor.getD []) (xm.sourceDeviceID.getD [])
            (xm.sourceInstanceID.getD []) subAddress) fuel world := by
  obtain ⟨vendor, hv⟩ := Option.isSome_iff_exists.mp h.sourceVendor
  obtain ⟨device, hd⟩ := Option.isSome_iff_exists.mp h.sourceDeviceID
  obtain ⟨instanceId, hi⟩ := Option.isSome_iff_exists.mp h.sourceInstanceID
  obtain ⟨schemaClass, hclass⟩ := Option.isSome_iff_exists.mp h.schemaClass
  obtain ⟨schemaType, htype⟩ := Option.isSome_iff_exists.mp h.schemaType
  have hcomponents : XplGetMessageSourceTagComponents xm = .ok (vendor, device, instanceId) := by
    rw [XplGetMessageSourceTagComponents, hv, hd, hi]
    rfl
  have hschema : XplGetMessageSchema xm = .ok (schemaClass, schemaType) := by
    rw [XplGetMessageSchema, hclass, htype]
    rfl
  rw [checkTriggerMessage, hpre, triggerSource, hcomponents, hschema, schemaText, hclass, htype,
    hv, hd, hi]
  simp only [Option.getD_some]
  cases cannedSubAddress subAddress xm (snprintf 63 (schemaClass ++ cstr "." ++ schemaType)) with
  | error f => rfl
  | ok s => rfl

/-- The sub-address is assigned for the three schemas, and not for others. -/
theorem cannedSubAddress_eq {xm : XplMessage} (h : xm.WellFormed) (subAddress : Unassigned) :
    (hasSubAddress xm → cannedSubAddress subAddress xm (snprintf 63 (schemaText xm)) =
      .ok (subAddressOf xm)) ∧
    (¬ hasSubAddress xm → subAddressOf xm = none ∧
      cannedSubAddress subAddress xm (snprintf 63 (schemaText xm)) = subAddress.read) := by
  have hschema : ∀ short : CString, short.length + 1 < 63 →
      (snprintf 63 (schemaText xm) = short ↔ schemaText xm = short) := fun _ => snprintf_eq_iff
  have hsensor := hschema (cstr "sensor.basic") (by decide)
  have hhvac := hschema (cstr "hvac.zone") (by decide)
  have hsecurity := hschema (cstr "security.gateway") (by decide)
  unfold cannedSubAddress subAddressOf hasSubAddress
  simp only [hsensor, hhvac, hsecurity, XplGetMessageValueByName_eq h]
  by_cases h₁ : schemaText xm = cstr "sensor.basic"
  · rw [if_pos h₁, if_pos h₁]
    exact ⟨fun _ => rfl, fun hnot => (hnot (h₁ ▸ List.mem_cons_self)).elim⟩
  · rw [if_neg h₁, if_neg h₁]
    by_cases h₂ : schemaText xm = cstr "hvac.zone" ∨ schemaText xm = cstr "security.gateway"
    · rw [if_pos h₂, if_pos h₂]
      refine ⟨fun _ => rfl, fun hnot => (hnot ?_).elim⟩
      simpa [h₁] using h₂
    · rw [if_neg h₂, if_neg h₂]
      refine ⟨fun hmem => ?_, fun _ => ⟨rfl, rfl⟩⟩
      simp only [List.mem_cons, List.not_mem_nil, or_false, h₁, false_or] at hmem
      exact (h₂ hmem).elim

/-- **A message is looked up under its tag exactly if** its schema is one
of the three: for any other the tag is up to a variable that was not
assigned. -/
theorem usesTag_iff {D σ P : Type} (env : Env D σ) (mode : Mode) (L : Lemon P) {theText : CString}
    {xm : XplMessage} (h : parseMessage theText = .ok (some xm)) (hfits : TagFitsBuffer xm)
    (world : σ) : UsesTag env mode L xm world ↔ hasSubAddress xm := by
  have hwf := parseMessage_wellFormed h
  obtain ⟨hv, hd, hi, hs⟩ := hfits
  constructor
  · intro huses
    refine Decidable.byContradiction fun hnot => ?_
    obtain ⟨hnone, hread⟩ := (cannedSubAddress_eq hwf (.string [])).2 hnot
    -- an empty string on the stack still adds the colon
    have hempty := huses (fun _ => none) (fun _ => none) (.string []) 0 rfl
    rw [checkTriggerMessage_eq env mode L hwf rfl, hread] at hempty
    have hsource : makeSource (xm.sourceVendor.getD []) (xm.sourceDeviceID.getD [])
        (xm.sourceInstanceID.getD []) (some []) = sourceTag xm :=
      congrArg Prod.fst (Except.ok.inj (Option.some.inj hempty))
    rw [makeSource_eq hv hd hi (by simp), sourceTag, hnone, sourceText] at hsource
    exact absurd (List.append_cancel_left hsource) (by decide)
  · intro hcanned DBFetchScript DBFetchScriptByTag subAddress fuel hpre
    rw [checkTriggerMessage_eq env mode L hwf hpre, (cannedSubAddress_eq hwf subAddress).1 hcanned]
    show actOnSource _ _ _ _ _ (makeSource _ _ _ (subAddressOf xm)) _ _ = _
    rw [makeSource_eq hv hd hi hs]
    rfl

/-! ## A sensor, and another schema -/

/-- A trigger of a sensor. -/
def sensorText : CString :=
  cstr "xpl-trig\n\x7b\nhop=1\nsource=a-b.c\ntarget=*\n\x7d\nsensor.basic\n\x7b\ndevice=d\n\x7d\n"

/-- The message of `sensorText`. -/
def sensorMessage : XplMessage :=
  { Service.sampleMessage with
    schemaClass := some (cstr "sensor")
    schemaType := some (cstr "basic")
    nvList := [newNameValueListEntry (cstr "device") (cstr "d")] }

theorem parseMessage_sensorText : parseMessage sensorText = .ok (some sensorMessage) := by
  rfl

theorem sensorMessage_usesTag : UsesTag Env.inert ⟨false, none, true⟩
    Lemon.deferred sensorMessage () :=
  (usesTag_iff _ _ _ parseMessage_sensorText ⟨by decide, by decide, by decide, by
    intro s hs
    obtain rfl : cstr "d" = s := Option.some.inj hs
    decide⟩ _).mpr (by decide)

/-- A message of another schema is looked up under what the stack holds. -/
theorem sampleMessage_not_usesTag : ¬ ∀ theText xm, parseMessage theText = .ok (some xm) →
    TagFitsBuffer xm → ∀ (env : Env Unit Unit) mode, UsesTag env mode
      Lemon.deferred xm () := by
  intro h
  have hnone : subAddressOf Service.sampleMessage = none := rfl
  have hfits : TagFitsBuffer Service.sampleMessage := by
    refine ⟨by decide, by decide, by decide, ?_⟩
    intro s hs
    rw [hnone] at hs
    cases hs
  have huses := h Service.sampleText Service.sampleMessage Service.parseMessage_sampleText hfits
    Env.inert ⟨false, none, true⟩ (fun _ => none) (fun _ => none) (.string (cstr "left")) 0 rfl
  have hrun : checkTriggerMessage Env.inert ⟨false, none, true⟩
      Lemon.deferred (fun _ => none) (fun _ => none)
      (.string (cstr "left")) Service.sampleMessage 0 () =
      some (.ok (cstr "a-b.c:left", ())) := rfl
  rw [hrun] at huses
  have hsource : cstr "a-b.c:left" = cstr "a-b.c" :=
    congrArg Prod.fst (Except.ok.inj (Option.some.inj huses))
  exact absurd hsource (by decide)

end XplEvent.Script
