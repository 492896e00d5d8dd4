import XplEvent.Wire.Fidelity
import XplEvent.Wire.Format
import XplEvent.Wire.Parse

/-!
# `parseMessage` undoes `formatMessage`

A message whose fields keep to the wire format is written as two blocks
that the decoder stores as they are, so that reading the text back gives
the message again. `Fits` is the wire format: the alphabet, the
separators a field must not hold, and the lengths of the decoder's
buffers.
-/

namespace XplEvent.Wire

/-! ## The wire format -/

/-- A vendor, a device and an instance with their separators. -/
def tagText (vendor deviceID instanceID : CString) : CString :=
  vendor ++ 45 :: (deviceID ++ 46 :: instanceID)

/-- A vendor, a device and an instance that make a tag. -/
structure TagFits (vendor deviceID instanceID : CString) : Prop where
  kept : ∀ c ∈ tagText vendor deviceID instanceID, Kept c
  length : (tagText vendor deviceID instanceID).length ≤ 31
  vendor_cut : 45 ∉ vendor
  deviceID_cut : 46 ∉ deviceID

/-- A name and a value that make a line. -/
structure PairFits (name value : CString) : Prop where
  name_kept : ∀ c ∈ name, Kept c
  value_kept : ∀ c ∈ value, Kept c
  name_length : name.length ≤ 31
  value_length : value.length ≤ 31
  name_cut : 61 ∉ name

/-- A block header. -/
structure HeaderFits (header : CString) : Prop where
  kept : ∀ c ∈ header, Kept c
  start : header.head? ≠ some 32
  ne_nil : header ≠ []
  length : header.length ≤ 63

instance (vendor deviceID instanceID : CString) :
    Decidable (TagFits vendor deviceID instanceID) :=
  decidable_of_decidable_of_iff
    (p := (∀ c ∈ tagText vendor deviceID instanceID, Kept c) ∧
      (tagText vendor deviceID instanceID).length ≤ 31 ∧ 45 ∉ vendor ∧ 46 ∉ deviceID)
    ⟨fun ⟨hk, hl, hv, hd⟩ => ⟨hk, hl, hv, hd⟩, fun ⟨hk, hl, hv, hd⟩ => ⟨hk, hl, hv, hd⟩⟩

instance (name value : CString) : Decidable (PairFits name value) :=
  decidable_of_decidable_of_iff
    (p := (∀ c ∈ name, Kept c) ∧ (∀ c ∈ value, Kept c) ∧ name.length ≤ 31 ∧
      value.length ≤ 31 ∧ 61 ∉ name)
    ⟨fun ⟨hn, hv, hnl, hvl, hcut⟩ => ⟨hn, hv, hnl, hvl, hcut⟩,
      fun ⟨hn, hv, hnl, hvl, hcut⟩ => ⟨hn, hv, hnl, hvl, hcut⟩⟩

instance (header : CString) : Decidable (HeaderFits header) :=
  decidable_of_decidable_of_iff
    (p := (∀ c ∈ header, Kept c) ∧ header.head? ≠ some 32 ∧ header ≠ [] ∧ header.length ≤ 63)
    ⟨fun ⟨hk, hs, hn, hl⟩ => ⟨hk, hs, hn, hl⟩, fun ⟨hk, hs, hn, hl⟩ => ⟨hk, hs, hn, hl⟩⟩

/-- A message that keeps to the wire format. A value is always set by
`addMessageNamedValue`. -/
structure XplMessage.Fits (xm : XplMessage) : Prop where
  source : TagFits (xm.sourceVendor.getD []) (xm.sourceDeviceID.getD [])
    (xm.sourceInstanceID.getD [])
  target : xm.isBroadcastMessage = false → TagFits (xm.targetVendor.getD [])
    (xm.targetDeviceID.getD []) (xm.targetInstanceID.getD [])
  schemaClass : 46 ∉ xm.schemaClass.getD []
  schema : HeaderFits (xm.schemaClass.getD [] ++ 46 :: xm.schemaType.getD [])
  values : ∀ le ∈ xm.nvList, le.itemValue.isSome = true
  pairs : ∀ le ∈ xm.nvList, PairFits le.itemName (le.itemValue.getD [])

/-- What comes back: a received message with the fields that are written. -/
def XplMessage.received (xm : XplMessage) : XplMessage :=
  { createReceivedMessage xm.messageType with
    hopCount := 1
    sourceVendor := xm.sourceVendor
    sourceDeviceID := xm.sourceDeviceID
    sourceInstanceID := xm.sourceInstanceID
    isBroadcastMessage := xm.isBroadcastMessage
    targetVendor := if xm.isBroadcastMessage then none else xm.targetVendor
    targetDeviceID := if xm.isBroadcastMessage then none else xm.targetDeviceID
    targetInstanceID := if xm.isBroadcastMessage then none else xm.targetInstanceID
    schemaClass := xm.schemaClass
    schemaType := xm.schemaType
    nvList := xm.nvList.map fun le => { le with magic := XNV_MAGIC } }

/-! ## Reading a written block -/

theorem Kept.ne {c : CChar} (h : Kept c) : c ≠ 125 ∧ c ≠ LF := by
  constructor
  · rintro rfl
    exact absurd h (by decide)
  · rintro rfl
    exact absurd h (by decide)

/-- A pair that makes a line, whatever the decoder makes of its characters. -/
def IsLine (le : XplNameValueLE) : Prop := IsName le.itemName ∧ IsValue (le.itemValue.getD [])

/-- The entry the decoder makes of a pair's line. -/
def storedPair (le : XplNameValueLE) : XplNameValueLE :=
  newNameValueListEntry (le.itemName.map stored) ((le.itemValue.getD []).map stored)

theorem PairFits.isLine {le : XplNameValueLE}
    (h : PairFits le.itemName (le.itemValue.getD [])) : IsLine le :=
  ⟨⟨fun c hc => ⟨fun heq => h.name_cut (heq ▸ hc), (h.name_kept c hc).ne.1⟩, h.name_length⟩,
    ⟨fun hline => (h.value_kept _ hline).ne.2 rfl, h.value_length⟩⟩

theorem PairFits.storedPair {le : XplNameValueLE}
    (h : PairFits le.itemName (le.itemValue.getD [])) :
    storedPair le = newNameValueListEntry le.itemName (le.itemValue.getD []) := by
  rw [Wire.storedPair, map_stored_iff.mpr h.name_kept, map_stored_iff.mpr h.value_kept]

/-- The lines of a list. -/
theorem exists_rawPairs {nvList : List XplNameValueLE} (h : ∀ le ∈ nvList, IsLine le) :
    ∃ pairs : List RawPair,
      pairs.flatMap RawPair.text =
        nvList.flatMap (fun e => e.itemName ++ 61 :: e.itemValue.getD [] ++ [LF]) ∧
      pairs.map RawPair.entry = nvList.map storedPair := by
  induction nvList with
  | nil => exact ⟨[], rfl, rfl⟩
  | cons le nvList ih =>
    obtain ⟨pairs, htext, hentry⟩ := ih fun q hq => h q (List.mem_cons_of_mem _ hq)
    obtain ⟨hname, hvalue⟩ := h le List.mem_cons_self
    refine ⟨⟨le.itemName, le.itemValue.getD [], hname, hvalue⟩ :: pairs, ?_, ?_⟩
    · rw [List.flatMap_cons, List.flatMap_cons, htext]
      rfl
    · rw [List.map_cons, List.map_cons, hentry]
      rfl

/-- **A block of lines is read to its end**, whatever comes after it. -/
theorem parseBlock_lines {header : CString} (hh : HeaderFits header)
    {nvList : List XplNameValueLE} (hp : ∀ le ∈ nvList, IsLine le) (rest blockHeader : CString) :
    parseBlock [] (blockText header nvList ++ rest) blockHeader 64 =
      .ok ((blockText header nvList).length, header, nvList.map storedPair) := by
  obtain ⟨pairs, htext, hentry⟩ := exists_rawPairs hp
  cases header with
  | nil => exact absurd rfl hh.ne_nil
  | cons first more =>
    have hfirst : 32 < first := by
      have hkept := hh.kept first List.mem_cons_self
      have hne : first ≠ 32 := fun heq => hh.start (by rw [heq]; rfl)
      unfold Kept at hkept
      grind
    have hlen := hh.length
    rw [List.length_cons] at hlen
    let b : RawBlock := {
      junk := []
      first := first
      more := more
      pairs := pairs
      cut := []
      junk_le := fun c hc => absurd hc List.not_mem_nil
      first_gt := hfirst
      more_line := fun hline => (hh.kept _ (List.mem_cons_of_mem _ hline)).ne.2 rfl
      more_length := by omega
      isName_cut := isName_nil }
    have hb : blockText (first :: more) nvList = b.text := by
      simp only [blockText, RawBlock.text, RawBlock.header, bodyText, b, htext, List.nil_append,
        List.append_assoc, List.append_nil]
    rw [hb, parseBlock_text b rest blockHeader []]
    simp only [b, RawBlock.header, List.nil_append, hentry, map_stored_iff.mpr hh.kept]

/-- A block that fits is read back as it was written. -/
theorem parseBlock_blockText {header : CString} (hh : HeaderFits header)
    {nvList : List XplNameValueLE}
    (hp : ∀ le ∈ nvList, PairFits le.itemName (le.itemValue.getD []))
    (rest blockHeader : CString) :
    parseBlock [] (blockText header nvList ++ rest) blockHeader 64 =
      .ok ((blockText header nvList).length, header,
        nvList.map fun le => newNameValueListEntry le.itemName (le.itemValue.getD [])) := by
  rw [parseBlock_lines hh fun le hle => (hp le hle).isLine,
    List.map_congr_left fun le hle => (hp le hle).storedPair]

/-! ## The text of a message is two blocks -/

/-- The target as it is written. -/
def XplMessage.targetText (xm : XplMessage) : CString :=
  if xm.isBroadcastMessage then cstr "*"
  else tagText (xm.targetVendor.getD []) (xm.targetDeviceID.getD []) (xm.targetInstanceID.getD [])

/-- The list of the header block. -/
def XplMessage.headerPairs (xm : XplMessage) : List XplNameValueLE :=
  [newNameValueListEntry (cstr "hop") (cstr "1"),
    newNameValueListEntry (cstr "source")
      (tagText (xm.sourceVendor.getD []) (xm.sourceDeviceID.getD []) (xm.sourceInstanceID.getD [])),
    newNameValueListEntry (cstr "target") xm.targetText]

/-- The header of the second block. -/
def XplMessage.schemaText (xm : XplMessage) : CString :=
  xm.schemaClass.getD [] ++ 46 :: xm.schemaType.getD []

theorem pairTexts_flatMap (le : XplNameValueLE) :
    (pairTexts le).flatMap (·.getD []) = le.itemName ++ 61 :: le.itemValue.getD [] ++ [LF] := by
  obtain ⟨magic, itemName, itemValue⟩ := le
  cases itemValue with
  | none => simp [pairTexts, cstr]
  | some value => simp [pairTexts, cstr]

theorem targetTexts_flatMap (xm : XplMessage) :
    (targetTexts xm).flatMap (·.getD []) = cstr "target=" ++ xm.targetText := by
  have htarget : cstr "target=" = cstr "target" ++ [61] := rfl
  have hdot : cstr "." = [46] := rfl
  have hdash : cstr "-" = [45] := rfl
  unfold targetTexts XplMessage.targetText
  split
  · rfl
  · simp only [tagTexts, tagText, List.flatMap_cons, List.flatMap_nil, Option.getD_some, htarget,
      hdot, hdash, List.append_assoc, List.cons_append, List.nil_append, List.append_nil]

theorem messageTexts_flatMap (xm : XplMessage) (type_ : CString) :
    (some type_ :: messageTexts xm).flatMap (·.getD []) =
      blockText type_ xm.headerPairs ++ blockText xm.schemaText xm.nvList := by
  have hopen : cstr "\n\x7b\nhop=1\nsource=" =
      [LF, 123, LF] ++ (cstr "hop" ++ 61 :: cstr "1" ++ [LF]) ++ (cstr "source" ++ [61]) := rfl
  have htarget : cstr "target=" = cstr "target" ++ [61] := rfl
  have hclose : cstr "\n\x7d\n" = [LF, 125, LF] := rfl
  have hbody : cstr "\n\x7b\n" = [LF, 123, LF] := rfl
  have hend : cstr "\x7d\n" = [125, LF] := rfl
  have hdot : cstr "." = [46] := rfl
  have hdash : cstr "-" = [45] := rfl
  simp only [messageTexts, tagTexts, blockText, XplMessage.headerPairs, XplMessage.schemaText,
    tagText, newNameValueListEntry, List.flatMap_cons, List.flatMap_nil, List.flatMap_append,
    targetTexts_flatMap, List.flatMap_assoc, pairTexts_flatMap, Option.getD_some, hopen, htarget,
    hclose, hbody, hend, hdot, hdash, List.append_assoc, List.cons_append, List.nil_append,
    List.append_nil]

/-! ## Reading the header block -/

theorem splitTag_tagText {vendor deviceID : CString} (hv : 45 ∉ vendor) (hd : 46 ∉ deviceID)
    (instanceID : CString) :
    splitTag (tagText vendor deviceID instanceID) = some (vendor, deviceID, instanceID) :=
  splitTag_append hv hd instanceID

theorem tagText_ne_star (vendor deviceID instanceID : CString) :
    tagText vendor deviceID instanceID ≠ cstr "*" := by
  intro h
  have hlen := congrArg List.length h
  have hstar : (cstr "*").length = 1 := rfl
  simp only [tagText, List.length_append, List.length_cons, hstar] at hlen
  omega

/-- The target comes back, or the broadcast flag. -/
theorem parseTarget_targetText {xm : XplMessage} (hf : xm.Fits) (xm' : XplMessage) :
    parseTarget xm' xm.targetText = some
      (if xm.isBroadcastMessage then { xm' with isBroadcastMessage := true }
      else { xm' with
        targetVendor := some (xm.targetVendor.getD [])
        targetDeviceID := some (xm.targetDeviceID.getD [])
        targetInstanceID := some (xm.targetInstanceID.getD []) }) := by
  unfold parseTarget XplMessage.targetText
  cases hb : xm.isBroadcastMessage with
  | true => rfl
  | false =>
    have htag := hf.target hb
    simp only [Bool.false_eq_true, if_false, tagText_ne_star,
      splitTag_tagText htag.vendor_cut htag.deviceID_cut]

/-- The fields `parseMessageHeader` sets. -/
theorem parseMessageHeader_headerPairs {xm : XplMessage} (hf : xm.Fits) (xm' : XplMessage) :
    parseMessageHeader xm' xm.headerPairs = .ok (parseTarget { xm' with
      hopCount := 1
      sourceVendor := some (xm.sourceVendor.getD [])
      sourceDeviceID := some (xm.sourceDeviceID.getD [])
      sourceInstanceID := some (xm.sourceInstanceID.getD []) } xm.targetText) := by
  have hhop : getNamedValue (cstr "hop") xm.headerPairs =
      .ok (some (newNameValueListEntry (cstr "hop") (cstr "1"))) := rfl
  have hsource : getNamedValue (cstr "source") xm.headerPairs =
      .ok (some (newNameValueListEntry (cstr "source") (tagText (xm.sourceVendor.getD [])
        (xm.sourceDeviceID.getD []) (xm.sourceInstanceID.getD [])))) := rfl
  have htarget : getNamedValue (cstr "target") xm.headerPairs =
      .ok (some (newNameValueListEntry (cstr "target") xm.targetText)) := rfl
  have hone : UtilStoi (some (cstr "1")) = .ok (some 1) := rfl
  have hsplit := splitTag_tagText hf.source.vendor_cut hf.source.deviceID_cut
    (xm.sourceInstanceID.getD [])
  simp only [parseMessageHeader, hhop, hsource, htarget, newNameValueListEntry, hone, hsplit,
    deref_some, bind, Except.bind, pure, Except.pure]
  rfl

/-- The lines of the header block fit. -/
theorem XplMessage.Fits.headerPairs {xm : XplMessage} (hf : xm.Fits) :
    ∀ le ∈ xm.headerPairs, PairFits le.itemName (le.itemValue.getD []) := by
  have hliteral : ∀ s ∈ [cstr "hop", cstr "1", cstr "source", cstr "target", cstr "*"],
      (∀ c ∈ s, Kept c) ∧ s.length ≤ 31 ∧ 61 ∉ s := by decide
  have hpair : ∀ {name value : CString}, (∀ c ∈ value, Kept c) → value.length ≤ 31 →
      name ∈ [cstr "hop", cstr "1", cstr "source", cstr "target", cstr "*"] →
      PairFits name value := fun hv hlen hname =>
    ⟨(hliteral _ hname).1, hv, (hliteral _ hname).2.1, hlen, (hliteral _ hname).2.2⟩
  intro le hle
  simp only [XplMessage.headerPairs, List.mem_cons, List.not_mem_nil, or_false] at hle
  rcases hle with rfl | rfl | rfl
  · exact hpair (hliteral (cstr "1") (by decide)).1 (by decide) (.head _)
  · exact hpair hf.source.kept hf.source.length (.tail _ (.tail _ (.head _)))
  · have htext : (∀ c ∈ xm.targetText, Kept c) ∧ xm.targetText.length ≤ 31 := by
      unfold XplMessage.targetText
      cases hb : xm.isBroadcastMessage with
      | true => exact ⟨(hliteral (cstr "*") (by decide)).1, (hliteral (cstr "*") (by decide)).2.1⟩
      | false => exact ⟨(hf.target hb).kept, (hf.target hb).length⟩
    exact hpair htext.1 htext.2 (.tail _ (.tail _ (.tail _ (.head _))))

/-! ## The round trip -/

theorem XPLMessageType.text_spec {t : XPLMessageType} {type_ : CString} (h : t.text = some type_) :
    headerType type_ = some t ∧ HeaderFits type_ := by
  cases t with
  | XPL_MESSAGE_ANY => cases h
  | XPL_MESSAGE_COMMAND =>
    cases h
    exact ⟨by decide, by decide⟩
  | XPL_MESSAGE_STATUS =>
    cases h
    exact ⟨by decide, by decide⟩
  | XPL_MESSAGE_TRIGGER =>
    cases h
    exact ⟨by decide, by decide⟩

/-- The fields a text is made of are set. -/
structure XplMessage.Complete (xm : XplMessage) : Prop where
  sourceVendor : xm.sourceVendor.isSome = true
  sourceDeviceID : xm.sourceDeviceID.isSome = true
  sourceInstanceID : xm.sourceInstanceID.isSome = true
  targetVendor : xm.isBroadcastMessage = false → xm.targetVendor.isSome = true
  targetDeviceID : xm.isBroadcastMessage = false → xm.targetDeviceID.isSome = true
  targetInstanceID : xm.isBroadcastMessage = false → xm.targetInstanceID.isSome = true
  schemaClass : xm.schemaClass.isSome = true
  schemaType : xm.schemaType.isSome = true

/-- What `formatMessage` has written when it returns `TRUE`. -/
theorem formatMessage_ok {xm : XplMessage} {text : CString}
    (h : formatMessage xm = .ok (some text)) : ∃ type_, xm.messageType.text = some type_ ∧
      xm.Complete ∧ text = blockText type_ xm.headerPairs ++ blockText xm.schemaText xm.nvList := by
  unfold formatMessage at h
  split at h
  · cases h
  · rename_i type_ htype
    obtain ⟨hsome, rfl⟩ := writeTexts_ok h
    have hwritten : ∀ t ∈ messageTexts xm, t.isSome = true :=
      fun t ht => hsome t (List.mem_cons_of_mem _ ht)
    have htarget : xm.isBroadcastMessage = false →
        ∀ t ∈ tagTexts xm.targetVendor xm.targetDeviceID xm.targetInstanceID, t.isSome = true := by
      intro hb t ht
      refine hwritten t ?_
      simp only [messageTexts, targetTexts, hb, Bool.false_eq_true, if_false, List.mem_append,
        List.mem_cons, ht, or_true, true_or]
    refine ⟨type_, htype, ?_, ?_⟩
    · constructor
      · exact hwritten _ (by simp [messageTexts, tagTexts])
      · exact hwritten _ (by simp [messageTexts, tagTexts])
      · exact hwritten _ (by simp [messageTexts, tagTexts])
      · exact fun hb => htarget hb _ (by simp [tagTexts])
      · exact fun hb => htarget hb _ (by simp [tagTexts])
      · exact fun hb => htarget hb _ (by simp [tagTexts])
      · exact hwritten _ (by simp [messageTexts])
      · exact hwritten _ (by simp [messageTexts])
    · rw [List.nil_append, messageTexts_flatMap]

/-- The texts of a complete message are all there. -/
theorem XplMessage.Complete.texts {xm : XplMessage} (hc : xm.Complete) :
    (messageTexts xm).all Option.isSome = true := by
  have hpair : ∀ le : XplNameValueLE, (pairTexts le).all Option.isSome = true := by
    intro le
    unfold pairTexts
    cases le.itemValue with
    | none => rfl
    | some value => rfl
  have htarget : (targetTexts xm).all Option.isSome = true := by
    unfold targetTexts
    cases hb : xm.isBroadcastMessage with
    | true => rfl
    | false =>
      simp [tagTexts, hc.targetVendor hb, hc.targetDeviceID hb, hc.targetInstanceID hb]
  simp only [messageTexts, tagTexts, List.all_append, List.all_cons, List.all_nil,
    List.all_flatMap, hpair, htarget, hc.sourceVendor, hc.sourceDeviceID, hc.sourceInstanceID,
    hc.schemaClass, hc.schemaType, Option.isSome_some, Bool.true_and, Bool.and_true]
  exact List.all_eq_true.mpr fun _ _ => rfl

/-- A complete message is written when its text fits the buffer. -/
theorem formatMessage_eq {xm : XplMessage} {type_ : CString} (hc : xm.Complete)
    (htype : xm.messageType.text = some type_)
    (hlen : (blockText type_ xm.headerPairs ++ blockText xm.schemaText xm.nvList).length <
      MSG_MAX_SIZE) :
    formatMessage xm =
      .ok (some (blockText type_ xm.headerPairs ++ blockText xm.schemaText xm.nvList)) := by
  have htexts := messageTexts_flatMap xm type_
  have hall : ∀ t ∈ some type_ :: messageTexts xm, t.isSome = true := by
    intro t ht
    rcases List.mem_cons.mp ht with rfl | ht
    · rfl
    · exact List.all_eq_true.mp hc.texts t ht
  rw [formatMessage, htype]
  refine (writeTexts_eq hall ?_).trans ?_
  · rw [List.nil_append, htexts]
    exact hlen
  · rw [List.nil_append, htexts]

/-- The second block gives the list of the received message. -/
theorem parseBlock_schema {xm : XplMessage} (hf : xm.Fits) (blockHeader : CString) :
    parseBlock [] (blockText xm.schemaText xm.nvList) blockHeader 64 =
      .ok ((blockText xm.schemaText xm.nvList).length, xm.schemaText, xm.received.nvList) := by
  have hblock := parseBlock_blockText hf.schema hf.pairs [] blockHeader
  have hlist : (xm.nvList.map fun le =>
      newNameValueListEntry le.itemName (le.itemValue.getD [])) = xm.received.nvList := by
    refine List.map_congr_left fun le hle => ?_
    rw [newNameValueListEntry, some_getD (hf.values le hle)]
  rw [hlist, List.append_nil] at hblock
  exact hblock

/-- **A header block that fits and a schema block** are read as the message
with the list of the second block. -/
theorem parseMessage_twoBlocks {xm : XplMessage} {type_ second : CString}
    {nvs : List XplNameValueLE} (hf : xm.Fits) (hc : xm.Complete)
    (htype : xm.messageType.text = some type_)
    (hblock : ∀ blockHeader, parseBlock [] second blockHeader 64 =
      .ok (second.length, xm.schemaText, nvs)) :
    parseMessage (blockText type_ xm.headerPairs ++ second) =
      .ok (some { xm.received with nvList := nvs }) := by
  obtain ⟨hheader, hfits⟩ := XPLMessageType.text_spec htype
  have hlist : (xm.headerPairs.map fun le =>
      newNameValueListEntry le.itemName (le.itemValue.getD [])) = xm.headerPairs := rfl
  have hpos : ¬ ((blockText type_ xm.headerPairs).length : Int) ≤ 0 := by
    simp only [blockText, List.length_append, List.length_cons]
    omega
  have hlen : ¬ (second.length : Int) < 0 := by omega
  have hcut : strchr xm.schemaText 46 = some (xm.schemaClass.getD [], xm.schemaType.getD []) :=
    strchr_append hf.schemaClass _
  rw [parseMessage, parseBlock_blockText hfits hf.headerPairs, hlist]
  simp only [bind, Except.bind, pure, Except.pure, hpos, if_false, hheader,
    parseMessageHeader_headerPairs hf, parseTarget_targetText hf, Int.toNat_natCast,
    List.drop_left, hblock, hlen, hcut, some_getD hc.sourceVendor,
    some_getD hc.sourceDeviceID, some_getD hc.sourceInstanceID, some_getD hc.schemaClass,
    some_getD hc.schemaType, XplMessage.received]
  cases hb : xm.isBroadcastMessage with
  | true => rfl
  | false =>
    simp only [some_getD (hc.targetVendor hb), some_getD (hc.targetDeviceID hb),
      some_getD (hc.targetInstanceID hb)]
    rfl

/-- The two blocks are read back as the message. -/
theorem parseMessage_blocks {xm : XplMessage} {type_ : CString} (hf : xm.Fits)
    (hc : xm.Complete) (htype : xm.messageType.text = some type_) :
    parseMessage (blockText type_ xm.headerPairs ++ blockText xm.schemaText xm.nvList) =
      .ok (some xm.received) :=
  parseMessage_twoBlocks hf hc htype (parseBlock_schema hf)

/-- **`parseMessage` undoes `formatMessage`**: the text of a message that
keeps to the wire format is read back as the message. -/
theorem parseMessage_formatMessage {xm : XplMessage} {text : CString} (hf : xm.Fits)
    (h : formatMessage xm = .ok (some text)) : parseMessage text = .ok (some xm.received) := by
  obtain ⟨type_, htype, hc, rfl⟩ := formatMessage_ok h
  exact parseMessage_blocks hf hc htype

/-- A targeted status message with a pair whose value is empty. -/
def sampleStatus : XplMessage :=
  { XplMessage.zero with
    messageType := .XPL_MESSAGE_STATUS
    hopCount := 1
    serviceObj := true
    sourceVendor := some (cstr "hwstar")
    sourceDeviceID := some (cstr "event")
    sourceInstanceID := some (cstr "host")
    targetVendor := some (cstr "v")
    targetDeviceID := some []
    targetInstanceID := some (cstr "i-1")
    schemaClass := some (cstr "sensor")
    schemaType := some (cstr "basic")
    nvList := [⟨0, cstr "current", some (cstr "21.5")⟩, ⟨0, cstr "units", some []⟩] }

theorem sampleStatus_fits : sampleStatus.Fits where
  source := by decide
  target _ := by decide
  schemaClass := by decide
  schema := by decide
  values := by decide
  pairs := by decide

set_option maxRecDepth 4000 in
theorem parseMessage_sampleStatus : ∃ text, formatMessage sampleStatus = .ok (some text) ∧
    parseMessage text = .ok (some sampleStatus.received) :=
  ⟨_, rfl, parseMessage_formatMessage sampleStatus_fits rfl⟩

end XplEvent.Wire
