import XplEvent.Script.Builtins
import XplEvent.Script.Hashes
import XplEvent.Script.Parse
import XplEvent.Service.Delivery

/-!
# `parseAndExecTrig` — a script on a received message

A script that acts on a message finds the message in two hashes: its
name/value pairs in `xplnvin`, its schema and its source in `xplin`. They
are filled before the script is parsed. The pairs are added one by one,
and the first addition makes the hash; then the hash is walked for the
debug output, with no test whether it was found.

A message can also be read directly (`XplGetMessageValueByName`). When a
name occurs more than once the two readings differ: the list is searched
from its head, the hash has kept what was added last.
-/

namespace XplEvent.Script

open Lib Wire

/-! ## Reading a message -/

/-- `XplMessageIterateNameValues`, over the state the callback changes. -/
def XplMessageIterateNameValues {S : Type}
    (callback : CString → Option CString → S → Except Fault S) :
    List XplNameValueLE → S → Except Fault S
  | [], s => .ok s
  | xnv :: rest, s => do
    ASSERT_FAIL (xnv.magic = XNV_MAGIC)
    let s ← callback xnv.itemName xnv.itemValue s
    XplMessageIterateNameValues callback rest s

/-- `talloc_strdup` of a string that may be `NULL`, in a `MALLOC_FAIL`. -/
def strdup : Option CString → Except Fault CString
  | some s => .ok s
  | none => .error .fatal

/-- `XplGetMessageValueByName`. -/
def XplGetMessageValueByName (xm : XplMessage) (theName : CString) :
    Except Fault (Option CString) := do
  match ← getNamedValue theName xm.nvList with
  | none => return none
  | some xnv => return some (← strdup xnv.itemValue)

/-- `XplGetMessageSchema`, with both strings asked for. -/
def XplGetMessageSchema (xm : XplMessage) : Except Fault (CString × CString) := do
  let theClass ← strdup xm.schemaClass
  let theType ← strdup xm.schemaType
  return (theClass, theType)

/-- `XplGetMessageSourceTagComponents`, with all three asked for. -/
def XplGetMessageSourceTagComponents (xm : XplMessage) :
    Except Fault (CString × CString × CString) := do
  let theVendor ← strdup xm.sourceVendor
  let theDeviceID ← strdup xm.sourceDeviceID
  let theInstanceID ← strdup xm.sourceInstanceID
  return (theVendor, theDeviceID, theInstanceID)

/-- `ParserHashWalk`: the keys and values its callback gets. What
`findHash` returns is followed without a test. -/
def ParserHashWalk (UtilHash : CString → UInt32) (steHead : List ParseHashSTE) (name : CString) :
    Except Fault (List (CString × CString)) := do
  let h ← deref (findHash UtilHash steHead name)
  return h.kvs.map fun ke => (ke.key, ke.value)

section

variable {D σ P : Type} (env : Env D σ) (mode : Mode)

/-- `parseAndExecTrigCallback`. The value is asserted in
`ParserHashAddKeyValue`. -/
def parseAndExecTrigCallback (name : CString) (value : Option CString) (st : Store σ) :
    Except Fault (Store σ) :=
  match value with
  | none => .error .assertion
  | some value => .ok (ParserHashAddKeyValue env mode st (cstr "xplnvin") name value).2

/-- The part of `parseAndExecTrig` before the script is looked at. -/
def trigSetUp (triggerMessage : XplMessage) (st : Store σ) : Except Fault (Store σ) := do
  let st ← XplMessageIterateNameValues (parseAndExecTrigCallback env mode)
    triggerMessage.nvList st
  -- the walk that prints the pairs
  let _ ← ParserHashWalk env.UtilHash st.steHead (cstr "xplnvin")
  let (theClass, theType) ← XplGetMessageSchema triggerMessage
  let (_, st) := ParserHashAddKeyValue env mode st (cstr "xplin") (cstr "classtype")
    (theClass ++ cstr "." ++ theType)
  let (vendor, device, instance_) ← XplGetMessageSourceTagComponents triggerMessage
  let (_, st) := ParserHashAddKeyValue env mode st (cstr "xplin") (cstr "sourceaddress")
    (vendor ++ cstr "-" ++ device ++ cstr "." ++ instance_)
  return st

/-- `parseAndExecTrig`, for at most `fuel` turns of the interpreter. The
result of the execution is not looked at. -/
def parseAndExecTrig (L : Lemon P) (triggerMessage : XplMessage) (hcl : ScriptInput) (fuel : Nat)
    (st : Store σ) : Option (Except Fault (PassFail × Store σ)) :=
  match trigSetUp env mode triggerMessage st with
  | .error f => some (.error f)
  | .ok st =>
    match ParserParseHCL L hcl .zero with
    | .error f => some (.error f)
    | .ok (.FAIL, _) => some (.ok (.FAIL, st))
    | .ok (.PASS, parseCtrl) =>
      (ParserExecPcode env mode (ParserExecFunction env mode) parseCtrl.pcodeHeader.code fuel
        st).map fun (_, st) =>
          match st.fault with
          | some f => .error f
          | none => .ok (.PASS, st)

/-- `trigExec`: the header is zeroed, so its symbol table is empty. -/
def trigExec (L : Lemon P) (triggerMessage : XplMessage) (script : ScriptInput) (fuel : Nat)
    (world : σ) : Option (Except Fault (PassFail × Store σ)) :=
  parseAndExecTrig env mode L triggerMessage script fuel (.fresh [] world)

/-- The value a script reads as `$xplnvin{name}` when it starts. -/
def startingValue (triggerMessage : XplMessage) (world : σ) (name : CString) :
    Except Fault (Option CString) := do
  let st ← trigSetUp env mode triggerMessage (.fresh [] world)
  return (ParserHashGetValue env mode st (cstr "xplnvin") name).1

end

/-! ## What the hashes are to hold -/

/-- `class.type`. -/
def schemaText (xm : XplMessage) : CString :=
  xm.schemaClass.getD [] ++ cstr "." ++ xm.schemaType.getD []

/-- `vendor-device.instance`. -/
def sourceText (xm : XplMessage) : CString :=
  xm.sourceVendor.getD [] ++ cstr "-" ++ xm.sourceDeviceID.getD [] ++ cstr "." ++
    xm.sourceInstanceID.getD []

/-- The message as a script is to find it. -/
structure TrigHashes (UtilHash : CString → UInt32) (xm : XplMessage)
    (steHead : List ParseHashSTE) : Prop where
  names : ∀ key, key ∈ (keyList UtilHash steHead (cstr "xplnvin")).map ParseHashKV.key ↔
    key ∈ xm.nvList.map XplNameValueLE.itemName
  once : ((keyList UtilHash steHead (cstr "xplnvin")).map ParseHashKV.key).Nodup
  values : ∀ key value, hashGetValue UtilHash steHead (cstr "xplnvin") key = some value →
    ∃ nvp ∈ xm.nvList, nvp.itemName = key ∧ nvp.itemValue = some value
  xplin : (keyList UtilHash steHead (cstr "xplin")).map (fun ke => (ke.key, ke.value)) =
    [(cstr "classtype", schemaText xm), (cstr "sourceaddress", sourceText xm)]

/-- The set-up gets to its end with the hashes filled. -/
def SetsUp {D σ : Type} (env : Env D σ) (mode : Mode) (xm : XplMessage) (world : σ) : Prop :=
  ∃ st, trigSetUp env mode xm (.fresh [] world) = .ok st ∧ TrigHashes env.UtilHash xm st.steHead

/-! ## The set-up -/

section

variable {D σ : Type} {env : Env D σ} {mode : Mode}

/-- The pairs of a list, as they are added. -/
def pairsOf (nvList : List XplNameValueLE) : List (CString × CString) :=
  nvList.map fun nvp => (nvp.itemName, nvp.itemValue.getD [])

/-- A hash other than `nvstate` is in memory, with or without a
database. -/
theorem ParserHashAddKeyValue_memory (env : Env D σ) (mode : Mode) (st : Store σ) {hashName : CString}
    (h : hashName ≠ cstr "nvstate") (key value : CString) :
    ∃ trace, ParserHashAddKeyValue env mode st hashName key value = (.PASS, { st with
      steHead := hashAddKeyValue env.UtilHash st.steHead hashName key value, trace := trace }) := by
  unfold ParserHashAddKeyValue
  rw [if_neg fun hdb => h hdb.2]
  exact ⟨_, rfl⟩

/-- The iteration adds the pairs. -/
theorem iterate_adds (env : Env D σ) (mode : Mode) {nvList : List XplNameValueLE}
    (h : ∀ nvp ∈ nvList, nvp.Stored) (st : Store σ) : ∃ trace,
      XplMessageIterateNameValues (parseAndExecTrigCallback env mode) nvList st = .ok { st with
        steHead := addPairs env.UtilHash st.steHead (cstr "xplnvin") (pairsOf nvList)
        trace := trace } := by
  induction nvList generalizing st with
  | nil => exact ⟨st.trace, rfl⟩
  | cons nvp rest ih =>
    have hnvp := h nvp List.mem_cons_self
    have hmagic : nvp.magic = XNV_MAGIC := hnvp.valid
    obtain ⟨value, hvalue⟩ := Option.isSome_iff_exists.mp hnvp.value
    obtain ⟨t₁, hadd⟩ := ParserHashAddKeyValue_memory env mode st
      (show cstr "xplnvin" ≠ cstr "nvstate" by decide) nvp.itemName value
    obtain ⟨t₂, hrest⟩ := ih (fun q hq => h q (List.mem_cons_of_mem nvp hq)) { st with
      steHead := hashAddKeyValue env.UtilHash st.steHead (cstr "xplnvin") nvp.itemName value
      trace := t₁ }
    refine ⟨t₂, ?_⟩
    rw [XplMessageIterateNameValues, hmagic, decide_eq_true rfl, ASSERT_FAIL_true, hvalue,
      parseAndExecTrigCallback, hadd]
    refine hrest.trans ?_
    simp only [pairsOf, List.map_cons, hvalue, Option.getD_some]
    rfl

/-- The symbol table the set-up leaves behind an empty one. -/
def trigTable (UtilHash : CString → UInt32) (xm : XplMessage) : List ParseHashSTE :=
  let steHead := addPairs UtilHash [] (cstr "xplnvin") (pairsOf xm.nvList)
  addPairs UtilHash steHead (cstr "xplin")
    [(cstr "classtype", schemaText xm), (cstr "sourceaddress", sourceText xm)]

/-- A message with pairs is set up. -/
theorem trigSetUp_eq (env : Env D σ) (mode : Mode) {xm : XplMessage} (h : xm.WellFormed)
    (hne : xm.nvList ≠ []) (world : σ) :
    ∃ trace, trigSetUp env mode xm (.fresh [] world) = .ok { (Store.fresh [] world) with
      steHead := trigTable env.UtilHash xm, trace := trace } := by
  obtain ⟨sourceVendor, hsv⟩ := Option.isSome_iff_exists.mp h.sourceVendor
  obtain ⟨sourceDeviceID, hsd⟩ := Option.isSome_iff_exists.mp h.sourceDeviceID
  obtain ⟨sourceInstanceID, hsi⟩ := Option.isSome_iff_exists.mp h.sourceInstanceID
  obtain ⟨schemaClass, hclass⟩ := Option.isSome_iff_exists.mp h.schemaClass
  obtain ⟨schemaType, htype⟩ := Option.isSome_iff_exists.mp h.schemaType
  have hxplin : cstr "xplin" ≠ cstr "nvstate" := by decide
  obtain ⟨t₁, hiterate⟩ := iterate_adds env mode h.nvList
    (Store.fresh [] world)
  have hpairs : pairsOf xm.nvList ≠ [] := by
    intro hnil
    exact hne (List.map_eq_nil_iff.mp hnil)
  obtain ⟨hash, hhash⟩ := Option.isSome_iff_exists.mp
    (findHash_addPairs (hashed_nil : Hashed env.UtilHash []) (cstr "xplnvin") hpairs)
  obtain ⟨t₂, hschema⟩ := ParserHashAddKeyValue_memory env mode
    { (Store.fresh [] world) with
      steHead := addPairs env.UtilHash [] (cstr "xplnvin") (pairsOf xm.nvList)
      trace := t₁ }
    hxplin (cstr "classtype") (schemaText xm)
  obtain ⟨t₃, hsource⟩ := ParserHashAddKeyValue_memory env mode
    { (Store.fresh [] world) with
      steHead := hashAddKeyValue env.UtilHash
        (addPairs env.UtilHash [] (cstr "xplnvin") (pairsOf xm.nvList)) (cstr "xplin")
        (cstr "classtype") (schemaText xm)
      trace := t₂ }
    hxplin (cstr "sourceaddress") (sourceText xm)
  refine ⟨t₃, ?_⟩
  simp only [Store.fresh, schemaText, sourceText, hsv, hsd, hsi, hclass, htype, Option.getD_some]
    at hiterate hschema hsource
  simp only [trigSetUp, Store.fresh, hiterate, ParserHashWalk, hhash, deref_some,
    XplGetMessageSchema, XplGetMessageSourceTagComponents, strdup, hsv, hsd, hsi, hclass, htype,
    hschema, hsource, bind, Except.bind, pure, Except.pure]
  simp only [trigTable, schemaText, sourceText, hsv, hsd, hsi, hclass, htype, Option.getD_some]
  rfl

/-- The walk follows the null pointer of the hash that was not made. -/
theorem trigSetUp_fault {xm : XplMessage} (h : xm.nvList = []) (world : σ) :
    trigSetUp env mode xm (.fresh [] world) = .error .nullDeref := by
  rw [trigSetUp, h]
  rfl

theorem keyList_xplnvin (UtilHash : CString → UInt32) (xm : XplMessage) :
    keyList UtilHash (trigTable UtilHash xm) (cstr "xplnvin") =
      putAll ParseHashKV.key [] ((pairsOf xm.nvList).map fun p => keyEntry UtilHash p.1 p.2) := by
  have hother : cstr "xplnvin" ≠ cstr "xplin" := by decide
  rw [trigTable, keyList_addPairs (hashed_nil.addPairs _ _), if_neg hother,
    keyList_addPairs hashed_nil, if_pos rfl]
  rfl

theorem keyList_xplin (UtilHash : CString → UInt32) (xm : XplMessage) :
    keyList UtilHash (trigTable UtilHash xm) (cstr "xplin") =
      [keyEntry UtilHash (cstr "classtype") (schemaText xm),
        keyEntry UtilHash (cstr "sourceaddress") (sourceText xm)] := by
  have hother : cstr "xplin" ≠ cstr "xplnvin" := by decide
  rw [trigTable, keyList_addPairs (hashed_nil.addPairs _ _), if_pos rfl,
    keyList_addPairs hashed_nil, if_neg hother]
  rfl

/-- The rows that are put are those of the pairs. -/
theorem mem_entries {UtilHash : CString → UInt32} {nvList : List XplNameValueLE}
    {ke : ParseHashKV}
    (h : ke ∈ (pairsOf nvList).map fun p => keyEntry UtilHash p.1 p.2) :
    ∃ nvp ∈ nvList, ke = keyEntry UtilHash nvp.itemName (nvp.itemValue.getD []) := by
  rw [pairsOf, List.map_map] at h
  obtain ⟨nvp, hnvp, rfl⟩ := List.mem_map.mp h
  exact ⟨nvp, hnvp, rfl⟩

theorem trigTable_hashed (UtilHash : CString → UInt32) (xm : XplMessage) :
    Hashed UtilHash (trigTable UtilHash xm) :=
  (hashed_nil.addPairs _ _).addPairs _ _

/-- **The hashes of a message hold it.** -/
theorem trigTable_trigHashes {xm : XplMessage} (h : xm.WellFormed)
    (UtilHash : CString → UInt32) : TrigHashes UtilHash xm (trigTable UtilHash xm) where
  names := by
    intro key
    rw [keyList_xplnvin, mem_keys_putAll, List.map_nil, or_iff_left List.not_mem_nil, pairsOf,
      List.map_map, List.map_map]
    rfl
  once := by
    rw [keyList_xplnvin]
    have hempty : Keyed ParseHashKV.key [] := List.nodup_nil
    exact hempty.putAll _
  values := by
    intro key value hvalue
    rw [hashGetValue_eq (trigTable_hashed UtilHash xm), keyList_xplnvin] at hvalue
    obtain ⟨ke, hke, rfl⟩ := Option.map_eq_some_iff.mp hvalue
    have hname : ke.key = key := lookup_key hke
    have hmem := (mem_putAll (lookup_mem hke)).resolve_right List.not_mem_nil
    obtain ⟨nvp, hnvp, rfl⟩ := mem_entries hmem
    exact ⟨nvp, hnvp, hname, (some_getD (h.nvList nvp hnvp).value []).symm⟩
  xplin := by
    rw [keyList_xplin]
    rfl

/-- **A message is set up for its script exactly when** it has a pair. -/
theorem setsUp_iff {theText : CString} {xm : XplMessage}
    (h : parseMessage theText = .ok (some xm)) (env : Env D σ) (mode : Mode) (world : σ) :
    SetsUp env mode xm world ↔ xm.nvList ≠ [] := by
  have hwf := parseMessage_wellFormed h
  constructor
  · rintro ⟨st, hst, -⟩ hnil
    rw [trigSetUp_fault hnil] at hst
    cases hst
  · intro hne
    obtain ⟨trace, hst⟩ := trigSetUp_eq env mode hwf hne world
    exact ⟨_, hst, trigTable_trigHashes hwf env.UtilHash⟩

/-! ## The two readings -/

/-- The value of the first pair of a name. -/
def firstValue (xm : XplMessage) (name : CString) : Option CString :=
  (lookup XplNameValueLE.itemName xm.nvList name).bind XplNameValueLE.itemValue

/-- The value of the last pair of a name. -/
def lastValue (xm : XplMessage) (name : CString) : Option CString :=
  (lookup XplNameValueLE.itemName xm.nvList.reverse name).bind XplNameValueLE.itemValue

theorem XplGetMessageValueByName_eq {xm : XplMessage} (h : xm.WellFormed) (name : CString) :
    XplGetMessageValueByName xm name = .ok (firstValue xm name) := by
  have hfind : getNamedValue name xm.nvList =
      .ok (lookup XplNameValueLE.itemName xm.nvList name) := by
    rw [getNamedValue_eq_find fun nvp hn => (h.nvList nvp hn).valid]
    exact congrArg _ (find?_eq_lookup fun nvp _ => by rw [decide_eq_true_iff, eq_comm])
  unfold XplGetMessageValueByName firstValue
  rw [hfind]
  cases hfound : lookup XplNameValueLE.itemName xm.nvList name with
  | none => rfl
  | some nvp =>
    obtain ⟨value, hvalue⟩ := Option.isSome_iff_exists.mp (h.nvList nvp (lookup_mem hfound)).value
    simp only [bind, Except.bind, hvalue, strdup, Option.bind_some]
    rfl

/-- The hash has kept the value that was added last. -/
theorem hashGetValue_trigTable {xm : XplMessage} (h : xm.WellFormed)
    (UtilHash : CString → UInt32) (name : CString) :
    hashGetValue UtilHash (trigTable UtilHash xm) (cstr "xplnvin") name = lastValue xm name := by
  have hentries : ((pairsOf xm.nvList).map fun p => keyEntry UtilHash p.1 p.2).reverse =
      xm.nvList.reverse.map fun nvp =>
        keyEntry UtilHash nvp.itemName (nvp.itemValue.getD []) := by
    rw [pairsOf, List.map_map, ← List.map_reverse]
    rfl
  rw [hashGetValue_eq (trigTable_hashed UtilHash xm), keyList_xplnvin, lookup_putAll, hentries,
    lookup_map]
  show Option.map _ (Option.or (Option.map _ (lookup XplNameValueLE.itemName _ name)) none) = _
  rw [Option.or_none, Option.map_map, lastValue]
  cases hfound : lookup XplNameValueLE.itemName xm.nvList.reverse name with
  | none => rfl
  | some nvp =>
    have hmem : nvp ∈ xm.nvList := List.mem_reverse.mp (lookup_mem hfound)
    exact some_getD (h.nvList nvp hmem).value []

/-- A name has a first value if it has a last one. -/
theorem lastValue_eq_none {xm : XplMessage} (h : xm.WellFormed) (name : CString) :
    lastValue xm name = none ↔ firstValue xm name = none := by
  have habsent : ∀ l : List XplNameValueLE, (∀ nvp ∈ l, nvp.Stored) →
      ((lookup XplNameValueLE.itemName l name).bind XplNameValueLE.itemValue = none ↔
        ∀ nvp ∈ l, nvp.itemName ≠ name) := by
    intro l hl
    rw [← lookup_eq_none]
    cases hfound : lookup XplNameValueLE.itemName l name with
    | none => exact iff_of_true rfl rfl
    | some nvp =>
      obtain ⟨value, hvalue⟩ := Option.isSome_iff_exists.mp (hl nvp (lookup_mem hfound)).value
      rw [Option.bind_some, hvalue]
      exact iff_of_false (Option.some_ne_none value) (Option.some_ne_none nvp)
  rw [lastValue, firstValue, habsent _ h.nvList,
    habsent _ fun nvp hn => h.nvList nvp (List.mem_reverse.mp hn)]
  simp only [List.mem_reverse]

/-- **The two readings of a message**: a script reads the last value of a
name, a direct reading gives the first, and one is missing if the other
is. They agree exactly when the two values do. -/
theorem readings_agree_iff {theText : CString} {xm : XplMessage}
    (h : parseMessage theText = .ok (some xm)) (hne : xm.nvList ≠ []) (env : Env D σ)
    (mode : Mode) (world : σ) (name : CString) :
    startingValue env mode xm world name = .ok (lastValue xm name) ∧
    XplGetMessageValueByName xm name = .ok (firstValue xm name) ∧
    (lastValue xm name = none ↔ firstValue xm name = none) ∧
    (startingValue env mode xm world name = XplGetMessageValueByName xm name ↔
      lastValue xm name = firstValue xm name) := by
  have hwf := parseMessage_wellFormed h
  have hdirect := XplGetMessageValueByName_eq hwf name
  have hscript : startingValue env mode xm world name = .ok (lastValue xm name) := by
    obtain ⟨trace, hst⟩ := trigSetUp_eq env mode hwf hne world
    have hmemory : cstr "xplnvin" ≠ cstr "nvstate" := by decide
    simp only [startingValue, hst, ParserHashGetValue, hmemory, and_false, if_false, bind,
      Except.bind, pure, Except.pure, hashGetValue_trigTable hwf]
  refine ⟨hscript, hdirect, lastValue_eq_none hwf name, ?_⟩
  rw [hscript, hdirect]
  exact ⟨fun heq => Except.ok.inj heq, fun heq => congrArg Except.ok heq⟩

end

/-- A trigger with a name that occurs twice. -/
def repeatedText : CString :=
  cstr "xpl-trig\n\x7b\nhop=1\nsource=a-b.c\ntarget=*\n\x7d\nx.y\n\x7b\nn=1\nn=2\n\x7d\n"

/-- The message of `repeatedText`. -/
def repeatedMessage : XplMessage :=
  { Service.sampleMessage with
    nvList := [newNameValueListEntry (cstr "n") (cstr "1"),
      newNameValueListEntry (cstr "n") (cstr "2")] }

theorem parseMessage_repeatedText : parseMessage repeatedText = .ok (some repeatedMessage) := by
  rfl

theorem setsUp_repeated : SetsUp Env.inert ⟨false, none, true⟩ repeatedMessage () :=
  (setsUp_iff parseMessage_repeatedText _ _ _).mpr (List.cons_ne_nil _ _)

/-- A message without pairs ends the process before its script starts. -/
theorem sampleMessage_not_setUp : ¬ ∀ theText xm, parseMessage theText = .ok (some xm) →
    ∀ (env : Env Unit Unit) mode, SetsUp env mode xm () := by
  intro h
  obtain ⟨st, hst, -⟩ := h Service.sampleText Service.sampleMessage
    Service.parseMessage_sampleText Env.inert ⟨false, none, true⟩
  rw [trigSetUp_fault rfl] at hst
  cases hst

theorem readings_repeated :
    startingValue Env.inert ⟨false, none, true⟩ repeatedMessage () (cstr "n") =
      .ok (some (cstr "2")) :=
  (readings_agree_iff parseMessage_repeatedText (List.cons_ne_nil _ _) _ _ _ _).1

/-- The two readings of a name that occurs twice are different. -/
theorem repeatedMessage_disagrees : ¬ ∀ theText xm, parseMessage theText = .ok (some xm) →
    xm.nvList ≠ [] → ∀ (env : Env Unit Unit) mode name,
      startingValue env mode xm () name = XplGetMessageValueByName xm name := by
  intro h
  have hsame := h repeatedText repeatedMessage parseMessage_repeatedText (List.cons_ne_nil _ _)
    Env.inert ⟨false, none, true⟩ (cstr "n")
  have hscript : startingValue Env.inert ⟨false, none, true⟩ repeatedMessage () (cstr "n") =
      .ok (some (cstr "2")) := rfl
  have hdirect : XplGetMessageValueByName repeatedMessage (cstr "n") =
      .ok (some (cstr "1")) := rfl
  rw [hscript, hdirect] at hsame
  exact absurd (Option.some.inj (Except.ok.inj hsame)) (by decide)

end XplEvent.Script
