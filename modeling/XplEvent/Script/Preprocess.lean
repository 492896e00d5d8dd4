import XplEvent.Script.Lexemes
import XplEvent.Script.Logic
import XplEvent.Script.Source
import XplEvent.Script.SourceTag

/-!
# The `preprocess` script of the distribution

`example-scripts/preprocess` is the script `checkTriggerMessage` runs when
it is in the database. It is here as the file has it, and as a tree. Run
on a message it leaves in `$result{subaddress}` the device of a sensor and
the zone of a thermostat or an alarm panel, and nothing for any other
schema: it does what the handling in C does that it takes the place of,
without the variable that this leaves unassigned.
-/

namespace XplEvent.Script

open Lib Wire

/-! ## The file -/

def preprocess : CString :=
  [ "#",
    "# Preprocess script. This is run each time a trigger message is",
    "# received.",
    "#",
    "# ",
    "# This script is used to make xpltags with multiple devices",
    "# have a unique entry in the the triglog table, and to be",
    "# acted on indepentently in the trigaction table.",
    "#",
    "# $result\x7bsubaddress\x7d is appended to the source tag after an",
    "# addec colon.",
    "#",
    "if(exists($xplnvin\x7bdevice\x7d))\x7b",
    "\t#Sub address for sensors ",
    "\tif($xplin\x7bclasstype\x7d eq \"sensor.basic\")\x7b",
    "\t\t$result\x7bsubaddress\x7d=$xplnvin\x7bdevice\x7d;",
    "\t\x7d",
    "\x7d",
    "if(exists($xplnvin\x7bzone\x7d))\x7b",
    "\t# Sub address for hvac",
    "\tif($xplin\x7bclasstype\x7d eq \"hvac.zone\")\x7b",
    "\t\t$result\x7bsubaddress\x7d=$xplnvin\x7bzone\x7d;",
    "\t\x7d",
    "\t#Sub address for security",
    "\tif($xplin\x7bclasstype\x7d eq \"security.gateway\")\x7b",
    "\t\t$result\x7bsubaddress\x7d=$xplnvin\x7bzone\x7d;",
    "\t\x7d",
    "\x7d" ].flatMap fun line => cstr line ++ [LF]

/-! ## The tree -/

namespace Preprocess

def xplin : Bareword := ⟨cstr "xplin", by decide⟩
def xplnvin : Bareword := ⟨cstr "xplnvin", by decide⟩
def result : Bareword := ⟨cstr "result", by decide⟩
def device : Bareword := ⟨cstr "device", by decide⟩
def zone : Bareword := ⟨cstr "zone", by decide⟩

def classtype : Hash := ⟨xplin, ⟨cstr "classtype", by decide⟩⟩
def subaddress : Hash := ⟨result, ⟨cstr "subaddress", by decide⟩⟩
def nvin (name : Bareword) : Hash := ⟨xplnvin, name⟩

/-- The sub-address of a schema is the value of a name. -/
def onSchema (schema : CString) (name : Bareword) : Statement :=
  .ifconst (.compare (.hash classtype) .OPRT_STREQUALITY (.rvalue (.stringlit false schema)) 0)
    (.initial (.assignment subaddress (.hash (nvin name)) 0)) 0

/-- A block for the messages with a name. -/
def ifExists (name : Bareword) (block : StatementList) : Statement :=
  .ifconst (.exists_ (nvin name) 0) block 0

def tree : StatementList :=
  .successive (.initial (ifExists device (.initial (onSchema (cstr "sensor.basic") device))))
    (ifExists zone (.successive (.initial (onSchema (cstr "hvac.zone") zone))
      (onSchema (cstr "security.gateway") zone)))

/-! ## The layout -/

open Piece in
/-- The pieces of `onSchema`, on three lines. -/
def schemaPieces (schema : CString) (name : Bareword) : List Piece :=
  [blank 9, token .if_, token .oparen] ++ classtype.yield.map token ++
    [blank 32, token .seq, blank 32, token (.stringlit false schema), token .cparen, token .obrace,
      blank LF, blank 9, blank 9] ++ subaddress.yield.map token ++ [token .equals] ++
    (nvin name).yield.map token ++ [token .semi, blank LF, blank 9, token .cbrace, blank LF]

open Piece in
/-- The pieces of `ifExists`. -/
def existsPieces (name : Bareword) (block : List Piece) : List Piece :=
  [token .if_, token .oparen, token .exists_, token .oparen] ++ (nvin name).yield.map token ++
    [token .cparen, token .cparen, token .obrace, blank LF] ++ block ++ [token .cbrace, blank LF]

def pieces : List Piece :=
  [.comment [], .comment (cstr " Preprocess script. This is run each time a trigger message is"),
    .comment (cstr " received."), .comment [], .comment (cstr " "),
    .comment (cstr " This script is used to make xpltags with multiple devices"),
    .comment (cstr " have a unique entry in the the triglog table, and to be"),
    .comment (cstr " acted on indepentently in the trigaction table."), .comment [],
    .comment (cstr " $result\x7bsubaddress\x7d is appended to the source tag after an"),
    .comment (cstr " addec colon."), .comment []] ++
  existsPieces device ([.blank 9, .comment (cstr "Sub address for sensors ")] ++
    schemaPieces (cstr "sensor.basic") device) ++
  existsPieces zone ([.blank 9, .comment (cstr " Sub address for hvac")] ++
    schemaPieces (cstr "hvac.zone") zone ++ [.blank 9, .comment (cstr "Sub address for security")] ++
    schemaPieces (cstr "security.gateway") zone)

theorem piecesText_pieces : piecesText pieces = preprocess := by decide +kernel

theorem laidOut : LaidOut 1 preprocess (piecesTokens 1 pieces) := by
  rw [← piecesText_pieces]
  exact laidOut_pieces (by decide +kernel) 1

theorem names_yylex : names (yylex 1 preprocess) = tree.yield := by
  rw [yylex_of_laidOut laidOut]
  decide +kernel

/-! ## What the tree does -/

/-- The values behind `onSchema`. -/
def setOn (vars : Vars) (schema : CString) (name : Bareword) : Vars :=
  if vars.get classtype = some schema then
    (vars.get (nvin name)).elim vars (vars.set subaddress)
  else vars

/-- Only the sub-address is set. -/
theorem setOn_get (vars : Vars) (schema : CString) (name : Bareword) {h : Hash}
    (hne : h.scalar.text ≠ result.text) : (setOn vars schema name).get h = vars.get h := by
  rw [setOn]
  split
  · cases vars.get (nvin name) with
    | none => rfl
    | some value => exact Vars.set_of_ne hne value h.key.text
  · rfl

theorem setOn_subaddress (vars : Vars) (schema : CString) (name : Bareword) :
    (setOn vars schema name).get subaddress =
      if vars.get classtype = some schema then (vars.get (nvin name)).or (vars.get subaddress)
      else vars.get subaddress := by
  rw [setOn]
  split
  · cases vars.get (nvin name) with
    | none => rfl
    | some value => exact Vars.get_set vars subaddress value
  · rfl

theorem setOn_none {vars : Vars} {name : Bareword} (h : vars.get (nvin name) = none)
    (schema : CString) : setOn vars schema name = vars := by
  rw [setOn, h]
  split
  · rfl
  · rfl

section

variable {D σ : Type} {env : Env D σ} {mode : Mode} {builtin : Builtin σ} {vars : Vars}

theorem classtype_inMemory : classtype.InMemory := by decide

theorem nvin_inMemory (name : Bareword) : (nvin name).InMemory :=
  show cstr "xplnvin" ≠ cstr "nvstate" by decide

theorem onSchema_triple {class_ value : CString} {name : Bareword}
    (hclass : vars.get classtype = some class_) (hvalue : vars.get (nvin name) = some value)
    (w : σ) (schema : CString) : Triple Store.stopped (Store.At env vars w)
      ((onSchema schema name).eval env mode builtin) (Store.At env (setOn vars schema name) w) := by
  refine ifconst_triple (eq_triple classtype_inMemory hclass w _ 0) (fun hanswer => ?_)
    (fun hanswer => ?_) 0
  · have hset : setOn vars schema name = vars.set subaddress value := by
      rw [setOn, hclass, of_decide_eq_true hanswer, hvalue]
      exact if_pos rfl
    rw [hset]
    exact initial_triple (assign_triple (by decide) (nvin_inMemory name) hvalue w 0)
  · rw [setOn, hclass]
    exact if_neg fun h => of_decide_eq_false hanswer (Option.some.inj h)

theorem ifExists_triple {vars' : Vars} {name : Bareword} {block : StatementList} {w : σ}
    (hblock : ∀ value, vars.get (nvin name) = some value →
      Triple Store.stopped (Store.At env vars w) (block.eval env mode builtin)
        (Store.At env vars' w))
    (hskip : vars.get (nvin name) = none → vars' = vars) :
    Triple Store.stopped (Store.At env vars w) ((ifExists name block).eval env mode builtin)
      (Store.At env vars' w) := by
  refine ifconst_triple (exists_triple (nvin_inMemory name) vars w 0) (fun hanswer => ?_)
    (fun hanswer => ?_) 0
  · obtain ⟨value, hvalue⟩ := Option.isSome_iff_exists.mp hanswer
    exact hblock value hvalue
  · exact hskip (Option.isSome_eq_false_iff.mp hanswer |> Option.isNone_iff_eq_none.mp)

/-- The values behind the script. -/
def finalVars (vars : Vars) : Vars :=
  setOn (setOn (setOn vars (cstr "sensor.basic") device) (cstr "hvac.zone") zone)
    (cstr "security.gateway") zone

theorem tree_triple {class_ : CString} (hclass : vars.get classtype = some class_) (w : σ) :
    Triple Store.stopped (Store.At env vars w) (tree.eval env mode builtin)
      (Store.At env (finalVars vars) w) := by
  have hxplin : classtype.scalar.text ≠ result.text := by decide
  have hxplnvin : ∀ name, (nvin name).scalar.text ≠ result.text := fun _ =>
    show cstr "xplnvin" ≠ cstr "result" by decide
  have hclass' := (setOn_get vars (cstr "sensor.basic") device hxplin).trans hclass
  refine successive_triple (Q := Store.At env (setOn vars (cstr "sensor.basic") device) w) ?_ ?_
  · exact ifExists_triple (fun value hvalue => onSchema_triple hclass hvalue w _)
      (fun hnone => setOn_none hnone _)
  · refine ifExists_triple (fun value hvalue => ?_) (fun hnone => ?_)
    · have hvalue' := (setOn_get _ (cstr "hvac.zone") zone (hxplnvin zone)).trans hvalue
      have hclass'' := (setOn_get _ (cstr "hvac.zone") zone hxplin).trans hclass'
      exact successive_triple (onSchema_triple hclass' hvalue w _)
        (onSchema_triple hclass'' hvalue' w _)
    · rw [finalVars, setOn_none hnone, setOn_none hnone]

end

/-! ## On a message -/

section

variable {D σ P : Type} {env : Env D σ} {mode : Mode} {xm : XplMessage}

/-- The sub-address the script finds. -/
def subAddressIn (xm : XplMessage) : Option CString :=
  if schemaText xm = cstr "sensor.basic" then lastValue xm (cstr "device")
  else if schemaText xm = cstr "hvac.zone" ∨ schemaText xm = cstr "security.gateway" then
    lastValue xm (cstr "zone")
  else none

/-- The values of a message that has been set up. -/
def startVars (UtilHash : CString → UInt32) (xm : XplMessage) : Vars :=
  hashGetValue UtilHash (trigTable UtilHash xm)

theorem startVars_classtype (UtilHash : CString → UInt32) (xm : XplMessage) :
    (startVars UtilHash xm).get classtype = some (schemaText xm) := by
  show hashGetValue UtilHash (trigTable UtilHash xm) (cstr "xplin") (cstr "classtype") = _
  rw [hashGetValue_eq (trigTable_hashed UtilHash xm), keyList_xplin]
  rfl

theorem startVars_nvin (h : xm.WellFormed) (UtilHash : CString → UInt32) (name : Bareword) :
    (startVars UtilHash xm).get (nvin name) = lastValue xm name.text :=
  hashGetValue_trigTable h UtilHash name.text

theorem startVars_subaddress (UtilHash : CString → UInt32) (xm : XplMessage) :
    (startVars UtilHash xm).get subaddress = none := by
  have hxplin : cstr "result" ≠ cstr "xplin" := by decide
  have hxplnvin : cstr "result" ≠ cstr "xplnvin" := by decide
  show hashGetValue UtilHash (trigTable UtilHash xm) (cstr "result") (cstr "subaddress") = _
  rw [hashGetValue_eq (trigTable_hashed UtilHash xm), trigTable,
    keyList_addPairs (hashed_nil.addPairs _ _), if_neg hxplin, keyList_addPairs hashed_nil,
    if_neg hxplnvin]
  rfl

theorem finalVars_subaddress (h : xm.WellFormed) (UtilHash : CString → UInt32) :
    (finalVars (startVars UtilHash xm)).get subaddress = subAddressIn xm := by
  have hxplin : classtype.scalar.text ≠ result.text := by decide
  have hxplnvin : (nvin zone).scalar.text ≠ result.text := by decide
  simp only [finalVars, setOn_subaddress, setOn_get _ _ _ hxplin, setOn_get _ _ _ hxplnvin,
    startVars_classtype, startVars_nvin h, startVars_subaddress, Option.some.injEq]
  rw [subAddressIn]
  by_cases hsensor : schemaText xm = cstr "sensor.basic"
  · have hhvac : ¬ schemaText xm = cstr "hvac.zone" := hsensor ▸ by decide
    have hsecurity : ¬ schemaText xm = cstr "security.gateway" := hsensor ▸ by decide
    rw [if_neg hsecurity, if_neg hhvac, if_pos hsensor, if_pos hsensor, Option.or_none]
    rfl
  · by_cases hhvac : schemaText xm = cstr "hvac.zone"
    · have hsecurity : ¬ schemaText xm = cstr "security.gateway" := hhvac ▸ by decide
      rw [if_neg hsecurity, if_pos hhvac, if_neg hsensor, if_neg hsensor, if_pos (.inl hhvac),
        Option.or_none]
      rfl
    · rw [if_neg hhvac, if_neg hsensor, if_neg hsensor, Option.or_none]
      simp only [hhvac, false_or]
      rfl

/-- **The script on a message**: it runs to its end, and touches nothing
but the symbol table. -/
theorem trigExec_eq {L : Lemon P} (hL : L.Documented) {toks : List LexToken}
    (htoks : names toks = tree.yield) (h : xm.WellFormed) (hne : xm.nvList ≠ []) {fuel : Nat}
    (hfuel : tree.size < fuel) (w : σ) : ∃ st,
      trigExec env mode L xm (.script toks) fuel w = some (.ok (.PASS, st)) ∧
      st.At env (finalVars (startVars env.UtilHash xm)) w := by
  obtain ⟨trace, hset⟩ := trigSetUp_eq env mode h hne w
  have hclean : Clean (names toks) := by
    rw [htoks]
    exact .of_not_mem (by decide) (by decide +kernel)
  obtain ⟨pc, hparse, -, hlength, hcode⟩ := ParserParseHCL_realizes hL htoks.symm hclean
  have htree : Triple Store.stopped (Store.At env (startVars env.UtilHash xm) w)
      (tree.eval env mode (builtins env mode))
      (Store.At env (finalVars (startVars env.UtilHash xm)) w) :=
    tree_triple (startVars_classtype env.UtilHash xm) w
  obtain ⟨hrun, hend⟩ := htree { (Store.fresh [] w) with
    steHead := trigTable env.UtilHash xm, trace := trace } rfl
    ⟨trigTable_hashed env.UtilHash xm, fun _ _ => rfl, rfl⟩
  obtain ⟨st, hexec, hst⟩ := hcode env mode { (Store.fresh [] w) with
    steHead := trigTable env.UtilHash xm, trace := trace } rfl fuel (hlength ▸ hfuel)
  obtain rfl := Store.eq_of_unlined hst.symm hrun
  have hfault := Option.isSome_eq_false_iff.mp (Bool.or_eq_false_iff.mp hrun).2
  refine ⟨_, ?_, hend⟩
  rw [trigExec, parseAndExecTrig, hset]
  simp only [hparse, hexec, Option.map_some, Option.isNone_iff_eq_none.mp hfault]

/-- With the script in the database, a message without pairs is the end of
the process, and any other is looked up under its source and what the
script has found. -/
theorem checkTriggerMessage_eq {L : Lemon P} (hL : L.Documented) (h : xm.WellFormed)
    {DBFetchScript : CString → Option ScriptInput} (hscript : DBFetchScript (cstr "preprocess") =
      some (.script (yylex 1 preprocess)))
    (DBFetchScriptByTag : CString → Option ScriptInput) (subAddress : Unassigned) {fuel : Nat}
    (hfuel : tree.size < fuel) (w : σ) :
    checkTriggerMessage env mode L DBFetchScript DBFetchScriptByTag subAddress xm fuel w =
      if xm.nvList = [] then some (.error .nullDeref)
      else actOnSource env mode L DBFetchScriptByTag xm
        (makeSource (xm.sourceVendor.getD []) (xm.sourceDeviceID.getD [])
          (xm.sourceInstanceID.getD []) (subAddressIn xm)) fuel w := by
  obtain ⟨vendor, hv⟩ := Option.isSome_iff_exists.mp h.sourceVendor
  obtain ⟨device, hd⟩ := Option.isSome_iff_exists.mp h.sourceDeviceID
  obtain ⟨instanceId, hi⟩ := Option.isSome_iff_exists.mp h.sourceInstanceID
  obtain ⟨schemaClass, hclass⟩ := Option.isSome_iff_exists.mp h.schemaClass
  obtain ⟨schemaType, htype⟩ := Option.isSome_iff_exists.mp h.schemaType
  have hcomponents : XplGetMessageSourceTagComponents xm = .ok (vendor, device, instanceId) := by
    rw [XplGetMessageSourceTagComponents, hv, hd, hi]
    rfl
  have hschema : XplGetMessageSchema xm = .ok (schemaClass, schemaType) := by
    rw [XplGetMessageSchema, hclass, htype]
    rfl
  have htoks := names_yylex
  generalize yylex 1 preprocess = toks at hscript htoks
  rw [checkTriggerMessage, hscript, triggerSource, hcomponents, hschema, hv, hd, hi]
  dsimp only [Option.getD_some]
  by_cases hne : xm.nvList = []
  · rw [if_pos hne, trigExec, parseAndExecTrig, trigSetUp_fault hne]
    rfl
  · obtain ⟨st, hexec, hst⟩ : ∃ st,
        trigExec env mode L xm (.script toks) fuel w = some (.ok (.PASS, st)) ∧
        st.At env (finalVars (startVars env.UtilHash xm)) w :=
      trigExec_eq hL htoks h hne hfuel w
    have hread : (Operand.hash subaddress).eval env mode st = (subAddressIn xm, st) := by
      rw [hst.get (by decide), finalVars_subaddress h]
    have hvalue : (ParserHashGetValue env mode st (cstr "result") (cstr "subaddress")).1 =
        subAddressIn xm := congrArg Prod.fst hread
    rw [if_neg hne, hexec]
    simp only [Option.map_some, bind, Except.bind, pure, Except.pure, hvalue, hst.world]

/-- With the script in the database, the message is looked up and logged
under its tag, whatever the stack holds. -/
def UsesTag (env : Env D σ) (mode : Mode) (L : Lemon P) (xm : XplMessage) (w : σ) : Prop :=
  ∀ DBFetchScript DBFetchScriptByTag subAddress fuel,
    DBFetchScript (cstr "preprocess") = some (.script (yylex 1 preprocess)) → tree.size < fuel →
    checkTriggerMessage env mode L DBFetchScript DBFetchScriptByTag subAddress xm fuel w =
      actOnSource env mode L DBFetchScriptByTag xm (sourceTag xm) fuel w

end

end Preprocess

end XplEvent.Script
