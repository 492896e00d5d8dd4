import XplEvent.Script.Trigger
import XplEvent.Wire.Accepted

/-!
# Reading the name/value list of a message

Three functions of the API read the list of a message: by name, as one
string, and entry by entry. Each asserts the magic number of the entries
it passes. The decoder makes its entries with `newNameValueListEntry`,
which sets it; `XplAddNameValue` makes its own, and they have none. So a
received message can be read and a sendable one only while its list is
empty (`readsBack_iff`).

`Built` is how a message gets its list, with the pairs that were put there
since the list was last cleared.
-/

namespace XplEvent.Script

open Lib Wire

/-! ## The functions of the API -/

/-- `XplAddNameValue`. -/
def XplAddNameValue (xm : XplMessage) (theName theValue : CString) : Except Fault XplMessage := do
  ASSERT_FAIL xm.serviceObj
  return addMessageNamedValue xm theName theValue

/-- The loop of `XplGetMessageNameValuesAsString` from the `i`-th entry
on. `printf` has `(null)` for a value that is `NULL`. -/
def nameValuesAsString : List XplNameValueLE → (i : Nat) → (res : CString) → Except Fault CString
  | [], _, res => .ok res
  | xnv :: rest, i, res => do
    ASSERT_FAIL (xnv.magic = XNV_MAGIC)
    let pair := xnv.itemName ++ cstr "=" ++ xnv.itemValue.getD (cstr "(null)")
    nameValuesAsString rest (i + 1) (res ++ if i ≠ 0 then cstr "," ++ pair else pair)

/-- `XplGetMessageNameValuesAsString`. -/
def XplGetMessageNameValuesAsString (xm : XplMessage) : Except Fault CString :=
  nameValuesAsString xm.nvList 0 []

/-- `XplMessageIsReceive`. -/
def XplMessageIsReceive (xm : XplMessage) : Bool := !xm.serviceObj

/-! ## How a message gets its list -/

/-- A call that changes the list of a sendable message. -/
inductive NameValueOp
  | add (name value : CString)
  | clear

/-- The call on the message; `XplClearNameValues` makes the same assertion
as `XplAddNameValue`. -/
def NameValueOp.apply (xm : XplMessage) : NameValueOp → Except Fault XplMessage
  | .add name value => XplAddNameValue xm name value
  | .clear => do
    ASSERT_FAIL xm.serviceObj
    return XplClearNameValues xm

/-- The pairs added since the last clear, by one call more. -/
def NameValueOp.pairs (pairs : List (CString × CString)) :
    NameValueOp → List (CString × CString)
  | .add name value => pairs ++ [(name, value)]
  | .clear => []

/-- A message as it is initialised for sending. -/
inductive Initialised : XplMessage → Prop
  | broadcast (xs : XplService) (messageType : XPLMessageType) :
    Initialised (createBroadcastMessage xs messageType)
  | targeted (xs : XplService) (messageType : XPLMessageType)
    (theVendor theDevice theInstance : CString) :
    Initialised (createTargetedMessage xs messageType theVendor theDevice theInstance)

/-- A message and its pairs: what calls have made of a sendable one, or
what the decoder has returned. -/
inductive Built : XplMessage → List (CString × CString) → Prop
  | sendable {xm xm' : XplMessage} (ops : List NameValueOp) (hinit : Initialised xm)
    (hrun : ops.foldlM NameValueOp.apply xm = .ok xm') : Built xm' (ops.foldl NameValueOp.pairs [])
  | received {theText : CString} {xm : XplMessage} (h : parseMessage theText = .ok (some xm)) :
    Built xm (pairsOf xm.nvList)

/-- The three functions answer as the pairs of the message say. -/
structure ReadsBack (xm : XplMessage) (pairs : List (CString × CString)) : Prop where
  value : ∀ theName, XplGetMessageValueByName xm theName =
    .ok ((pairs.find? fun p => p.1 = theName).map Prod.snd)
  string : XplGetMessageNameValuesAsString xm =
    .ok (List.intercalate (cstr ",") (pairs.map fun p => p.1 ++ cstr "=" ++ p.2))
  iterate : ∀ (S : Type) (callback : CString → Option CString → S → Except Fault S) (s : S),
    XplMessageIterateNameValues callback xm.nvList s =
      pairs.foldlM (fun s p => callback p.1 (some p.2) s) s

/-! ## Entries with their magic number -/

theorem intercalate_cons (sep a : CString) (l : List CString) :
    List.intercalate sep (a :: l) = a ++ l.flatMap (sep ++ ·) := by
  induction l generalizing a with
  | nil => simp only [List.intercalate, List.intersperse, List.flatten_cons, List.flatten_nil,
      List.flatMap_nil]
  | cons b l ih =>
    rw [List.flatMap_cons, List.append_assoc, ← ih b]
    simp only [List.intercalate, List.intersperse, List.flatten_cons]

section

variable {nvList : List XplNameValueLE} (h : ∀ nvp ∈ nvList, nvp.Stored)

include h

/-- The string behind the first pair. -/
theorem nameValuesAsString_succ (i : Nat) (res : CString) :
    nameValuesAsString nvList (i + 1) res = .ok (res ++
      ((pairsOf nvList).map fun p => p.1 ++ cstr "=" ++ p.2).flatMap (cstr "," ++ ·)) := by
  induction nvList generalizing i res with
  | nil => rw [pairsOf, List.map_nil, List.map_nil, List.flatMap_nil, List.append_nil]; rfl
  | cons nvp rest ih =>
    have hnvp := h nvp List.mem_cons_self
    have hmagic : nvp.magic = XNV_MAGIC := hnvp.valid
    obtain ⟨value, hvalue⟩ := Option.isSome_iff_exists.mp hnvp.value
    rw [nameValuesAsString, hmagic, decide_eq_true rfl, ASSERT_FAIL_true, ok_bind,
      ih fun q hq => h q (List.mem_cons_of_mem nvp hq), if_pos (Nat.succ_ne_zero i)]
    simp only [pairsOf, List.map_cons, List.flatMap_cons, hvalue, Option.getD_some,
      List.append_assoc]

theorem getString_eq (xm : XplMessage) (hxm : xm.nvList = nvList) :
    XplGetMessageNameValuesAsString xm = .ok (List.intercalate (cstr ",")
      ((pairsOf nvList).map fun p => p.1 ++ cstr "=" ++ p.2)) := by
  rw [XplGetMessageNameValuesAsString, hxm]
  cases nvList with
  | nil => rfl
  | cons nvp rest =>
    have hnvp := h nvp List.mem_cons_self
    have hmagic : nvp.magic = XNV_MAGIC := hnvp.valid
    obtain ⟨value, hvalue⟩ := Option.isSome_iff_exists.mp hnvp.value
    rw [nameValuesAsString, hmagic, decide_eq_true rfl, ASSERT_FAIL_true, ok_bind,
      nameValuesAsString_succ fun q hq => h q (List.mem_cons_of_mem nvp hq)]
    simp only [pairsOf, List.map_cons, hvalue, Option.getD_some, intercalate_cons]
    rfl

theorem iterate_eq {S : Type} (callback : CString → Option CString → S → Except Fault S) (s : S) :
    XplMessageIterateNameValues callback nvList s =
      (pairsOf nvList).foldlM (fun s p => callback p.1 (some p.2) s) s := by
  induction nvList generalizing s with
  | nil => rfl
  | cons nvp rest ih =>
    have hnvp := h nvp List.mem_cons_self
    have hmagic : nvp.magic = XNV_MAGIC := hnvp.valid
    obtain ⟨value, hvalue⟩ := Option.isSome_iff_exists.mp hnvp.value
    rw [XplMessageIterateNameValues, hmagic, decide_eq_true rfl, ASSERT_FAIL_true, ok_bind]
    simp only [pairsOf, List.map_cons, hvalue, Option.getD_some, List.foldlM_cons]
    exact bind_congr fun s => ih (fun q hq => h q (List.mem_cons_of_mem nvp hq)) s

theorem getValue_eq (xm : XplMessage) (hxm : xm.nvList = nvList) (theName : CString) :
    XplGetMessageValueByName xm theName =
      .ok (((pairsOf nvList).find? fun p => p.1 = theName).map Prod.snd) := by
  have hsymm : (fun nvp : XplNameValueLE => decide (theName = nvp.itemName)) =
      fun nvp => decide (nvp.itemName = theName) :=
    funext fun nvp => decide_eq_decide.mpr eq_comm
  rw [XplGetMessageValueByName, hxm, getNamedValue_eq_find fun q hq => (h q hq).valid, ok_bind,
    pairsOf, List.find?_map, hsymm]
  show _ = Except.ok (Option.map Prod.snd (Option.map _
    (nvList.find? fun nvp => decide (nvp.itemName = theName))))
  cases hfound : nvList.find? fun nvp => decide (nvp.itemName = theName) with
  | none => rfl
  | some nvp =>
    obtain ⟨value, hvalue⟩ :=
      Option.isSome_iff_exists.mp (h nvp (List.mem_of_find?_eq_some hfound)).value
    simp only [hvalue, Option.map_some, Option.getD_some]
    rfl

end

theorem readsBack_of_stored {xm : XplMessage} (h : ∀ nvp ∈ xm.nvList, nvp.Stored) :
    ReadsBack xm (pairsOf xm.nvList) :=
  ⟨getValue_eq h xm rfl, getString_eq h xm rfl, fun _ => iterate_eq h⟩

/-- An empty list is read as one. -/
theorem readsBack_nil {xm : XplMessage} (h : xm.nvList = []) : ReadsBack xm [] := by
  have hstored : ∀ nvp ∈ xm.nvList, nvp.Stored := by
    intro nvp hmem
    rw [h] at hmem
    cases hmem
  have hread := readsBack_of_stored hstored
  rwa [h] at hread

/-! ## Entries without it -/

/-- The entries `XplAddNameValue` makes of pairs. -/
def addedEntries (pairs : List (CString × CString)) : List XplNameValueLE :=
  pairs.map fun p => ⟨0, p.1, some p.2⟩

/-- What the calls make of a sendable message: they all return. -/
theorem foldlM_apply (ops : List NameValueOp) {xm : XplMessage} (hxm : xm.serviceObj = true)
    {pairs : List (CString × CString)} (hlist : xm.nvList = addedEntries pairs) :
    ops.foldlM NameValueOp.apply xm =
      .ok { xm with nvList := addedEntries (ops.foldl NameValueOp.pairs pairs) } := by
  induction ops generalizing xm pairs with
  | nil =>
    rw [List.foldl_nil, ← hlist]
    rfl
  | cons op ops ih =>
    have hassert : ASSERT_FAIL xm.serviceObj = .ok () := by
      rw [hxm]
      rfl
    have hstep : op.apply xm = .ok { xm with nvList := addedEntries (op.pairs pairs) } := by
      cases op with
      | add name value =>
        have hgrown : addedEntries (pairs ++ [(name, value)]) =
            addedEntries pairs ++ [⟨0, name, some value⟩] := List.map_append
        rw [NameValueOp.apply, XplAddNameValue, hassert, ok_bind,
          addMessageNamedValue, hlist, NameValueOp.pairs, hgrown]
        rfl
      | clear =>
        rw [NameValueOp.apply, hassert, ok_bind]
        rfl
    have hrest := @ih { xm with nvList := addedEntries (op.pairs pairs) } hxm _ rfl
    rw [List.foldlM_cons, hstep, ok_bind, hrest]
    rfl

theorem Initialised.sendable {xm : XplMessage} (h : Initialised xm) :
    xm.serviceObj = true ∧ xm.nvList = addedEntries [] := by
  cases h with
  | broadcast xs messageType => exact ⟨rfl, rfl⟩
  | targeted xs messageType v d i => exact ⟨rfl, rfl⟩

/-- A list with an entry that has no magic number cannot be read. -/
theorem not_readsBack {xm : XplMessage} {p : CString × CString}
    {pairs pairs' : List (CString × CString)} (h : xm.nvList = addedEntries (p :: pairs)) :
    ¬ ReadsBack xm pairs' := by
  intro hread
  have hstring := hread.string
  have hmagic : decide ((0 : UInt32) = XNV_MAGIC) = false := by decide
  rw [XplGetMessageNameValuesAsString, h, addedEntries, List.map_cons, nameValuesAsString,
    hmagic] at hstring
  cases hstring

/-! ## The condition -/

theorem parseMessage_serviceObj {theText : CString} {xm : XplMessage}
    (h : parseMessage theText = .ok (some xm)) : xm.serviceObj = false := by
  obtain ⟨b₁, b₂, rest, messageType, xm₀, classType, blockDelim, -, -, hread, -, rfl⟩ :=
    parseMessage_read h
  obtain ⟨hopCount, v, d, i, itemValue, -, -, -, -, htarget⟩ := hread.read
  obtain ⟨⟨flag, tv, td, ti, rfl⟩, -⟩ := parseTarget_wellFormed htarget
  rfl

/-- **The name/value functions read a message back exactly when it was
received or has no pair since its list was last cleared.** -/
theorem readsBack_iff {xm : XplMessage} {pairs : List (CString × CString)} (h : Built xm pairs) :
    ReadsBack xm pairs ↔ XplMessageIsReceive xm = true ∨ pairs = [] := by
  cases h with
  | received hparse =>
    have hreceive : XplMessageIsReceive xm = true := by
      rw [XplMessageIsReceive, parseMessage_serviceObj hparse]
      rfl
    exact iff_of_true (readsBack_of_stored (parseMessage_wellFormed hparse).nvList) (.inl hreceive)
  | @sendable xm₀ _ ops hinit hrun =>
    obtain ⟨hservice, hlist⟩ := hinit.sendable
    rw [foldlM_apply ops hservice hlist] at hrun
    cases hrun
    cases hpairs : ops.foldl NameValueOp.pairs [] with
    | nil => exact iff_of_true (readsBack_nil rfl) (.inr rfl)
    | cons p pairs =>
      refine iff_of_false (not_readsBack rfl) ?_
      rintro (hreceive | hempty)
      · rw [XplMessageIsReceive, hservice] at hreceive
        cases hreceive
      · cases hempty

/-- A trigger message with two pairs, as it is received. -/
def triggerText : CString := cstr
  "xpl-trig\n\x7b\nhop=1\nsource=v-d.i\ntarget=*\n\x7d\nsensor.basic\n\x7b\ndevice=t\ncurrent=21.5\n\x7d\n"

/-- The calls on a broadcast message. -/
def broadcastAfter (ops : List NameValueOp) : Except Fault XplMessage :=
  ops.foldlM NameValueOp.apply (createBroadcastMessage
    (Service.sampleService .XPL_REPORT_MODE_NORMAL) .XPL_MESSAGE_STATUS)

/-- A received message reads back its pairs, a sendable one none of those
it has, and none where they have been cleared. -/
theorem readsBack_triggerText :
    (∃ xm, parseMessage triggerText = .ok (some xm) ∧
      ReadsBack xm [(cstr "device", cstr "t"), (cstr "current", cstr "21.5")]) ∧
    (∃ xm, broadcastAfter [.add (cstr "a") (cstr "b"), .add (cstr "c") (cstr "d")] = .ok xm ∧
      ¬ ReadsBack xm [(cstr "a", cstr "b"), (cstr "c", cstr "d")]) ∧
    ∃ xm, broadcastAfter [.add (cstr "a") (cstr "b"), .clear] = .ok xm ∧ ReadsBack xm [] := by
  refine ⟨⟨_, rfl, ?_⟩, ⟨_, rfl, fun hread => ?_⟩, _, rfl, ?_⟩
  · have hparse : parseMessage triggerText = .ok (some _) := rfl
    exact (readsBack_iff (.received hparse)).mpr (.inl rfl)
  · have h := (readsBack_iff (.sendable [.add (cstr "a") (cstr "b"), .add (cstr "c") (cstr "d")]
      (.broadcast _ _) rfl)).mp hread
    exact h.elim Bool.noConfusion (List.cons_ne_nil _ _)
  · exact (readsBack_iff (.sendable [.add (cstr "a") (cstr "b"), .clear] (.broadcast _ _) rfl)).mpr
      (.inr rfl)

/-- With one pair every reader ends the process. -/
theorem readsBack_fails : ¬ ∀ xm pairs, Built xm pairs → ReadsBack xm pairs := by
  intro h
  have hread := h _ _ (.sendable [.add (cstr "a") (cstr "b")]
    (.broadcast (Service.sampleService .XPL_REPORT_MODE_NORMAL) .XPL_MESSAGE_STATUS) rfl)
  have hvalue := hread.value (cstr "a")
  cases hvalue

end XplEvent.Script
