import XplEvent.Wire.Message

/-!
# `formatMessage` — the encoder

The texts a message is written as, in the order of the source, and the
transmit buffer they are appended to while they fit. A field that is
`NULL` is a null pointer for `strlen` when its turn comes.
-/

namespace XplEvent.Wire

def MSG_MAX_SIZE : Nat := 1500

/-- `appendText`: `none` when the buffer would be full. -/
def appendText (txBuff theString : CString) : Option CString :=
  if txBuff.length + theString.length ≥ MSG_MAX_SIZE then none else some (txBuff ++ theString)

/-- A sequence of `WRITE_TEXT`: `none` is `return FALSE`. -/
def writeTexts : List (Option CString) → CString → Except Fault (Option CString)
  | [], txBuff => .ok (some txBuff)
  | theString :: texts, txBuff => do
    match appendText txBuff (← deref theString) with
    | none => return none
    | some txBuff => writeTexts texts txBuff

/-- The message type as it is written; `XPL_MESSAGE_ANY` is none to send. -/
def XPLMessageType.text : XPLMessageType → Option CString
  | .XPL_MESSAGE_ANY => none
  | .XPL_MESSAGE_COMMAND => some (cstr "xpl-cmnd")
  | .XPL_MESSAGE_STATUS => some (cstr "xpl-stat")
  | .XPL_MESSAGE_TRIGGER => some (cstr "xpl-trig")

/-- A vendor, a device and an instance with their separators. -/
def tagTexts (vendor deviceID instanceID : Option CString) : List (Option CString) :=
  [vendor, some (cstr "-"), deviceID, some (cstr "."), instanceID]

/-- The texts of the target line. -/
def targetTexts (xm : XplMessage) : List (Option CString) :=
  if xm.isBroadcastMessage then [some (cstr "target=*")]
  else some (cstr "target=") :: tagTexts xm.targetVendor xm.targetDeviceID xm.targetInstanceID

/-- The texts of a name/value pair; a value that is `NULL` is left out. -/
def pairTexts (le : XplNameValueLE) : List (Option CString) :=
  [some le.itemName, some (cstr "=")] ++
    (match le.itemValue with
      | some value => [some value]
      | none => []) ++ [some [LF]]

/-- The texts after the message type. -/
def messageTexts (xm : XplMessage) : List (Option CString) :=
  [some (cstr "\n\x7b\nhop=1\nsource=")] ++
    tagTexts xm.sourceVendor xm.sourceDeviceID xm.sourceInstanceID ++ [some [LF]] ++
    targetTexts xm ++ [some (cstr "\n\x7d\n")] ++
    [xm.schemaClass, some (cstr "."), xm.schemaType, some (cstr "\n\x7b\n")] ++
    xm.nvList.flatMap pairTexts ++ [some (cstr "\x7d\n")]

/-- `formatMessage`: the text in the transmit buffer, or `none` for
`FALSE`. -/
def formatMessage (xm : XplMessage) : Except Fault (Option CString) :=
  match xm.messageType.text with
  | none => .error .assertion
  | some type_ => writeTexts (some type_ :: messageTexts xm) []

/-- What has been written is all of the texts, in order, and none of them
was `NULL`. -/
theorem writeTexts_ok {texts : List (Option CString)} {txBuff out : CString}
    (h : writeTexts texts txBuff = .ok (some out)) :
    (∀ t ∈ texts, t.isSome = true) ∧ out = txBuff ++ texts.flatMap (·.getD []) := by
  induction texts generalizing txBuff with
  | nil =>
    cases h
    exact ⟨fun t ht => absurd ht List.not_mem_nil, (List.append_nil _).symm⟩
  | cons t texts ih =>
    cases t with
    | none => cases h
    | some theString =>
      rw [writeTexts] at h
      simp only [deref_some, bind, Except.bind] at h
      unfold appendText at h
      split at h
      · rename_i heq
        cases h
      · rename_i txBuff' heq
        split at heq
        · cases heq
        cases heq
        obtain ⟨hsome, hout⟩ := ih h
        refine ⟨fun u hu => ?_, ?_⟩
        · rcases List.mem_cons.mp hu with rfl | hu
          · rfl
          · exact hsome u hu
        · rw [hout, List.flatMap_cons, Option.getD_some, List.append_assoc]

/-- Texts that are all there and fit are written. -/
theorem writeTexts_eq {texts : List (Option CString)} {txBuff : CString}
    (h : ∀ t ∈ texts, t.isSome = true)
    (hlen : (txBuff ++ texts.flatMap (·.getD [])).length < MSG_MAX_SIZE) :
    writeTexts texts txBuff = .ok (some (txBuff ++ texts.flatMap (·.getD []))) := by
  induction texts generalizing txBuff with
  | nil =>
    rw [List.flatMap_nil, List.append_nil]
    rfl
  | cons t texts ih =>
    obtain ⟨theString, rfl⟩ := Option.isSome_iff_exists.mp (h t List.mem_cons_self)
    rw [List.flatMap_cons, Option.getD_some, ← List.append_assoc] at hlen ⊢
    have hfits : ¬ txBuff.length + theString.length ≥ MSG_MAX_SIZE := by
      rw [List.length_append, List.length_append] at hlen
      omega
    rw [writeTexts]
    simp only [deref_some, bind, Except.bind, appendText, hfits, if_false]
    exact ih (fun u hu => h u (List.mem_cons_of_mem _ hu)) hlen

end XplEvent.Wire
