import XplEvent.Wire.Parse

/-!
# What `parseMessage` accepts is well formed

A message that comes out of `parseMessage` has a source, a schema and a
target or the broadcast flag, and every entry of its name/value list has
its magic number and a value. An `hbeat.request` is not classified, then
or later. The code behind it asserts some of this and relies on the rest.
-/

namespace XplEvent.Wire

open Lib (Turn)

/-- An entry as the decoder makes it. -/
structure XplNameValueLE.Stored (nvp : XplNameValueLE) : Prop where
  valid : nvp.Valid
  value : nvp.itemValue.isSome = true

/-- A well-formed received message. -/
structure XplMessage.WellFormed (xm : XplMessage) : Prop where
  sourceVendor : xm.sourceVendor.isSome = true
  sourceDeviceID : xm.sourceDeviceID.isSome = true
  sourceInstanceID : xm.sourceInstanceID.isSome = true
  schemaClass : xm.schemaClass.isSome = true
  schemaType : xm.schemaType.isSome = true
  targetVendor : xm.isBroadcastMessage = false → xm.targetVendor.isSome = true
  targetDeviceID : xm.isBroadcastMessage = false → xm.targetDeviceID.isSome = true
  targetInstanceID : xm.isBroadcastMessage = false → xm.targetInstanceID.isSome = true
  unclassified : xm.schemaClass = some (cstr "hbeat") → xm.schemaType = some (cstr "request") →
    xm.messageClass = .XPL_MSG_CLASS_NORMAL
  nvList : ∀ nvp ∈ xm.nvList, nvp.Stored

/-! ## The list of a block -/

theorem stored_entry (name value : CString) : (newNameValueListEntry name value).Stored :=
  ⟨rfl, rfl⟩

/-- The list a turn leaves behind. -/
def turnList : Turn Scan (Int × Scan) → List XplNameValueLE
  | .again s => s.nvList
  | .done (_, s) => s.nvList

/-- A turn leaves the list as it is or adds an entry to it. -/
theorem blockStep_list {size : Nat} {s : Scan} {i : Nat} {c : CChar}
    {turn : Turn Scan (Int × Scan)} (h : blockStep size s i c = .ok turn) :
    turnList turn = s.nvList ∨
      ∃ name value, turnList turn = s.nvList ++ [newNameValueListEntry name value] := by
  unfold blockStep at h
  simp only [VALID_CHAR_eq] at h
  -- every branch returns, or writes a buffer and returns
  repeat' split at h
  all_goals first
    | (cases h; exact .inl rfl)
    | (obtain ⟨buf, -, h⟩ := bind_ok h
       cases h
       first
         | exact .inl rfl
         | exact .inr ⟨_, _, rfl⟩)

theorem blockStep_stored {size : Nat} {s : Scan} {i : Nat} {c : CChar}
    {turn : Turn Scan (Int × Scan)} (hs : ∀ nvp ∈ s.nvList, nvp.Stored)
    (h : blockStep size s i c = .ok turn) : ∀ nvp ∈ turnList turn, nvp.Stored := by
  intro nvp hmem
  rcases blockStep_list h with hlist | ⟨name, value, hlist⟩
  · rw [hlist] at hmem
    exact hs nvp hmem
  · rw [hlist] at hmem
    rcases List.mem_append.mp hmem with hmem | hmem
    · exact hs nvp hmem
    · rw [List.mem_singleton.mp hmem]
      exact stored_entry name value

theorem blockScan_stored {size theLength : Nat} {t : CString} {i : Nat} {s s' : Scan} {r : Int}
    (hs : ∀ nvp ∈ s.nvList, nvp.Stored) (h : blockScan size theLength i t s = .ok (r, s')) :
    ∀ nvp ∈ s'.nvList, nvp.Stored := by
  induction t generalizing i s with
  | nil =>
    cases h
    exact hs
  | cons c t ih =>
    rw [blockScan] at h
    split at h
    · cases h
    · rename_i result hstep
      cases h
      exact blockStep_stored hs hstep
    · rename_i s₁ hstep
      exact ih (blockStep_stored hs hstep) h

theorem parseBlock_stored {theText blockHeader header : CString} {size : Nat} {r : Int}
    {list : List XplNameValueLE}
    (h : parseBlock [] theText blockHeader size = .ok (r, header, list)) :
    ∀ nvp ∈ list, nvp.Stored := by
  obtain ⟨⟨r', s⟩, hscan, h⟩ := bind_ok h
  cases h
  exact blockScan_stored (fun _ hmem => absurd hmem List.not_mem_nil) hscan

/-! ## The header -/

theorem parseTarget_wellFormed {xm xm' : XplMessage} {itemValue : CString}
    (h : parseTarget xm itemValue = some xm') :
    (∃ flag v d i, xm' = { xm with
        isBroadcastMessage := flag, targetVendor := v, targetDeviceID := d, targetInstanceID := i }) ∧
      (xm'.isBroadcastMessage = false → xm'.targetVendor.isSome = true ∧
        xm'.targetDeviceID.isSome = true ∧ xm'.targetInstanceID.isSome = true) := by
  unfold parseTarget at h
  split at h
  · cases h
    exact ⟨⟨_, _, _, _, rfl⟩, fun hflag => Bool.noConfusion hflag⟩
  · split at h
    · cases h
    · cases h
      exact ⟨⟨_, _, _, _, rfl⟩, fun _ => ⟨rfl, rfl, rfl⟩⟩

/-- What `parseMessageHeader` has read when it returns `TRUE`. -/
theorem parseMessageHeader_ok {xm xm' : XplMessage} {nameValueList : List XplNameValueLE}
    (h : parseMessageHeader xm nameValueList = .ok (some xm')) :
    ∃ (hop source target : XplNameValueLE) (hopCount : Int) (tag v d i itemValue : CString),
      getNamedValue (cstr "hop") nameValueList = .ok (some hop) ∧
      UtilStoi hop.itemValue = .ok (some hopCount) ∧ 1 ≤ hopCount ∧
      getNamedValue (cstr "source") nameValueList = .ok (some source) ∧
      splitTag tag = some (v, d, i) ∧
      getNamedValue (cstr "target") nameValueList = .ok (some target) ∧
      parseTarget { xm with
        hopCount := hopCount
        sourceVendor := some v
        sourceDeviceID := some d
        sourceInstanceID := some i } itemValue = some xm' := by
  unfold parseMessageHeader at h
  obtain ⟨hop, hhop, h⟩ := bind_ok h
  split at h
  · cases h
  obtain ⟨hopCount, hcount, h⟩ := bind_ok h
  split at h
  · cases h
  split at h
  · cases h
  rename_i hpos
  obtain ⟨source, hsource, h⟩ := bind_ok h
  split at h
  · cases h
  obtain ⟨tag, -, h⟩ := bind_ok h
  split at h
  · cases h
  rename_i hcut
  obtain ⟨target, htarget, h⟩ := bind_ok h
  split at h
  · cases h
  obtain ⟨itemValue, -, h⟩ := bind_ok h
  exact ⟨_, _, _, _, tag, _, _, _, itemValue, hhop, hcount, Int.not_lt.mp hpos, hsource, hcut,
    htarget, Except.ok.inj h⟩

/-- What `parseMessage` has read when a message comes out. -/
theorem parseMessage_ok {theText : CString} {xm : XplMessage}
    (h : parseMessage theText = .ok (some xm)) :
    ∃ (n n' : Int) (header header' classType blockDelim : CString)
      (list nvList : List XplNameValueLE) (messageType : XPLMessageType) (xm₀ : XplMessage),
      parseBlock [] theText [] 64 = .ok (n, header, list) ∧ 0 < n ∧
      headerType header = some messageType ∧
      parseMessageHeader (createReceivedMessage messageType) list = .ok (some xm₀) ∧
      parseBlock [] (theText.drop n.toNat) header 64 = .ok (n', header', nvList) ∧ 0 ≤ n' ∧
      strchr header' 46 = some (classType, blockDelim) ∧
      xm = { xm₀ with
        nvList := nvList
        schemaClass := some classType
        schemaType := some blockDelim } := by
  unfold parseMessage at h
  obtain ⟨⟨n, header, list⟩, hfirst, h⟩ := bind_ok h
  simp only at h
  split at h
  · cases h
  rename_i hpos
  split at h
  · cases h
  rename_i messageType htype
  split at h
  · cases h
  obtain ⟨xm', hheader, h⟩ := bind_ok h
  split at h
  · cases h
  rename_i xm₀
  obtain ⟨⟨n', header', nvList⟩, hsecond, h⟩ := bind_ok h
  simp only at h
  split at h
  · cases h
  rename_i hnonneg
  split at h
  · cases h
  rename_i classType blockDelim hschema
  cases h
  exact ⟨n, n', header, header', classType, blockDelim, list, nvList, messageType, xm₀, hfirst,
    Int.not_le.mp hpos, htype, hheader, hsecond, Int.not_lt.mp hnonneg, hschema, rfl⟩

/-- **A message that is accepted is well formed.** -/
theorem parseMessage_wellFormed {theText : CString} {xm : XplMessage}
    (h : parseMessage theText = .ok (some xm)) : xm.WellFormed := by
  obtain ⟨n, n', header, header', classType, blockDelim, list, nvList, messageType, xm₀, -, -, -,
    hheader, hblock, -, -, rfl⟩ := parseMessage_ok h
  obtain ⟨-, -, -, hopCount, tag, v, d, i, itemValue, -, -, -, -, -, -, htarget⟩ :=
    parseMessageHeader_ok hheader
  obtain ⟨⟨flag, tv, td, ti, rfl⟩, hset⟩ := parseTarget_wellFormed htarget
  exact {
    sourceVendor := rfl
    sourceDeviceID := rfl
    sourceInstanceID := rfl
    schemaClass := rfl
    schemaType := rfl
    targetVendor := fun hflag => (hset hflag).1
    targetDeviceID := fun hflag => (hset hflag).2.1
    targetInstanceID := fun hflag => (hset hflag).2.2
    unclassified := fun _ _ => rfl
    nvList := parseBlock_stored hblock }

end XplEvent.Wire
