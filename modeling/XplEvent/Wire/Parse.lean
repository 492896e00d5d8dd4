import XplEvent.Lib.Split
import XplEvent.Wire.Block

/-!
# `parseMessage` — the decoder

The two blocks of a message: the header block gives the type, the hop
count, the source and the target, the second the schema and the
name/value list. A tag is cut at the first `-` and the first `.` after
it.
-/

namespace XplEvent.Wire

/-- `isspace` in the C locale. -/
def isspace (c : CChar) : Bool := c = 32 ∨ (9 ≤ c ∧ c ≤ 13)

def isdigit (c : CChar) : Bool := 48 ≤ c ∧ c ≤ 57

/-- The number a row of digits stands for. -/
def digitsValue (digits : CString) : Nat :=
  digits.foldl (fun n c => 10 * n + (c - 48).toNatClampNeg) 0

def LLONG_MAX : Int := 9223372036854775807

def LLONG_MIN : Int := -9223372036854775808

def INT_MAX : Int := 2147483647

def INT_MIN : Int := -2147483648

/-- `strtoll` in base ten: the value, clamped to its range, and the text
behind the number; that is the whole text when there is no number. -/
def strtoll (val : CString) : Int × CString :=
  let (negative, digits) : Bool × CString := match val.dropWhile isspace with
    | 45 :: rest => (true, rest)
    | 43 :: rest => (false, rest)
    | rest => (false, rest)
  if (digits.takeWhile isdigit).isEmpty then (0, val)
  else
    let n : Int := digitsValue (digits.takeWhile isdigit)
    (max LLONG_MIN (min LLONG_MAX (if negative then -n else n)), digits.dropWhile isdigit)

/-- `UtilStoi`; `none` is `FAIL`. -/
def UtilStoi (val : Option CString) : Except Fault (Option Int) :=
  match val with
  | none => .error .assertion
  | some val =>
    let (l, endp) := strtoll val
    .ok (if val ≠ [] ∧ endp = [] ∧ l ≤ INT_MAX ∧ INT_MIN ≤ l then some l else none)

def UINT_MAX : Int := 4294967295

/-- `UtilStou`; `none` is `FAIL`. -/
def UtilStou (val : Option CString) : Except Fault (Option Nat) :=
  match val with
  | none => .error .assertion
  | some val =>
    let (l, endp) := strtoll val
    .ok (if val ≠ [] ∧ endp = [] ∧ l ≤ UINT_MAX ∧ 0 ≤ l then some l.toNat else none)

/-- `strchr`, with the terminator the callers put in place of the
character: the string before it and the string after it. -/
def strchr (s : CString) (c : CChar) : Option (CString × CString) := Lib.splitAt? (· = c) s

theorem strchr_append {s : CString} {c : CChar} (h : c ∉ s) (rest : CString) :
    strchr (s ++ c :: rest) c = some (s, rest) := by
  have hs : ∀ d ∈ s, decide (d = c) = false := by
    intro d hd
    refine decide_eq_false ?_
    rintro rfl
    exact h hd
  exact Lib.splitAt?_append hs (decide_eq_true rfl) rest

theorem strchr_none {s : CString} {c : CChar} (h : strchr s c = none) : c ∉ s :=
  fun hmem => absurd rfl (of_decide_eq_false (Lib.splitAt?_none h c hmem))

/-- What `strchr` finds is the first such character. -/
theorem strchr_ok {s before after : CString} {c : CChar} (h : strchr s c = some (before, after)) :
    s = before ++ c :: after ∧ c ∉ before := by
  obtain ⟨x, hs, hx, hbefore⟩ := Lib.splitAt?_ok h
  obtain rfl := of_decide_eq_true hx
  exact ⟨hs, fun hmem => absurd rfl (of_decide_eq_false (hbefore x hmem))⟩

/-- The cutting of a source or a target tag. -/
def splitTag (tag : CString) : Option (CString × CString × CString) :=
  match strchr tag 45 with
  | none => none
  | some (theVendor, rest) =>
    match strchr rest 46 with
    | none => none
    | some (theDeviceID, theInstanceID) => some (theVendor, theDeviceID, theInstanceID)

theorem splitTag_append {vendor deviceID : CString} (hv : 45 ∉ vendor) (hd : 46 ∉ deviceID)
    (instanceID : CString) :
    splitTag (vendor ++ 45 :: (deviceID ++ 46 :: instanceID)) =
      some (vendor, deviceID, instanceID) := by
  simp only [splitTag, strchr_append hv, strchr_append hd]

/-- A tag that is cut is its three parts, at its first `-` and the first
`.` behind that. -/
theorem splitTag_ok {tag vendor deviceID instanceID : CString}
    (h : splitTag tag = some (vendor, deviceID, instanceID)) :
    tag = vendor ++ 45 :: (deviceID ++ 46 :: instanceID) ∧ 45 ∉ vendor ∧ 46 ∉ deviceID := by
  unfold splitTag at h
  split at h
  · cases h
  rename_i hvendor
  split at h
  · cases h
  rename_i hdevice
  cases h
  obtain ⟨rfl, hv⟩ := strchr_ok hvendor
  obtain ⟨rfl, hd⟩ := strchr_ok hdevice
  exact ⟨rfl, hv, hd⟩

/-- The target part of `parseMessageHeader`. -/
def parseTarget (xm : XplMessage) (itemValue : CString) : Option XplMessage :=
  if itemValue = cstr "*" then some { xm with isBroadcastMessage := true }
  else match splitTag itemValue with
    | none => none
    | some (theVendor, theDeviceID, theInstanceID) =>
      some { xm with
        targetVendor := some theVendor
        targetDeviceID := some theDeviceID
        targetInstanceID := some theInstanceID }

/-- `parseMessageHeader`; `none` is `FALSE`. -/
def parseMessageHeader (xm : XplMessage) (nameValueList : List XplNameValueLE) :
    Except Fault (Option XplMessage) := do
  match ← getNamedValue (cstr "hop") nameValueList with
  | none => return none
  | some hop =>
    match ← UtilStoi hop.itemValue with
    | none => return none
    | some hopCount =>
      if hopCount < 1 then return none
      match ← getNamedValue (cstr "source") nameValueList with
      | none => return none
      | some source =>
        match splitTag (← deref source.itemValue) with
        | none => return none
        | some (theVendor, theDeviceID, theInstanceID) =>
          let xm := { xm with
            hopCount := hopCount
            sourceVendor := some theVendor
            sourceDeviceID := some theDeviceID
            sourceInstanceID := some theInstanceID }
          match ← getNamedValue (cstr "target") nameValueList with
          | none => return none
          | some target => return parseTarget xm (← deref target.itemValue)

/-- The message type a block header names. -/
def headerType (blockHeader : CString) : Option XPLMessageType :=
  if blockHeader = cstr "xpl-cmnd" then some .XPL_MESSAGE_COMMAND
  else if blockHeader = cstr "xpl-stat" then some .XPL_MESSAGE_STATUS
  else if blockHeader = cstr "xpl-trig" then some .XPL_MESSAGE_TRIGGER
  else none

/-- `parseMessage`; `none` is a `NULL` result. The header buffer is not
initialised before the first block is read into it, and holds the header
of the first when the second is missing. -/
def parseMessage (theText : CString) : Except Fault (Option XplMessage) := do
  let (parsedThisTime, blockHeader, list) ← parseBlock [] theText [] 64
  if parsedThisTime ≤ 0 then return none
  match headerType blockHeader with
  | none => return none
  | some messageType =>
    if list.isEmpty then return none
    match ← parseMessageHeader (createReceivedMessage messageType) list with
    | none => return none
    | some xm =>
      let (parsedThisTime, blockHeader, nvList) ←
        parseBlock [] (theText.drop parsedThisTime.toNat) blockHeader 64
      if parsedThisTime < 0 then return none
      match strchr blockHeader 46 with
      | none => return none
      | some (classType, blockDelim) =>
        return some { xm with
          nvList := nvList
          schemaClass := some classType
          schemaType := some blockDelim }

end XplEvent.Wire
