import XplEvent.Control.Listener
import XplEvent.Script.CheckSyntax
import XplEvent.Script.Spelling

/-!
# `interpretClientCommand` — what a command does to the daemon

`Listener` is told how the rest of the daemon answers a command. Here the
answers are computed: `exec` fetches a script, parses and runs it, and
`schreload` loads the schedule again. A command is answered with one line
unless the process ends on the way, and there are four ways for it to end
(`repliesOnce_iff`): there is no command to look at, there is no scheduler
yet, the schedule cannot be loaded, or the script ends the process.

The result of the execution is not looked at (`parseAndExecScript`). So the
reply to `exec` is `ok:` too where a script fails at run time, or where it
has been cut off (`truthful_iff`).
-/

namespace XplEvent.Control

open Script (Env Mode Store Lemon LexToken ParserParseHCL ParserExecPcode ParserExecFunction)

/-! ## The rest of the daemon -/

/-- A row of a result: the columns and their values. -/
abbrev SqlRow := List (CString × Option CString)

/-- How the database answers when the schedule is read. -/
structure ScheduleAnswers where
  /-- `dbTxBegin`. -/
  begins : PassFail
  /-- The rows of the table. -/
  rows : List SqlRow
  /-- `sqlite3_exec` leaves an error message. -/
  error : Bool

/-- The globals that a command reads. -/
structure Globals where
  /-- The scheduler has been created. -/
  sch : Bool
  exitOnErr : Bool
  xplEventService : Option XplService
  /-- The scripts of the database by name. -/
  DBFetchScript : CString → Option CString
  schedule : ScheduleAnswers

/-- `ASSERT_FAIL` of a pointer. -/
def demand {α : Type} : Option α → Except Fault α
  | some a => .ok a
  | none => .error .assertion

/-- `DBGetFieldByName`. -/
def DBGetFieldByName (row : SqlRow) (colname : CString) : Option CString :=
  (row.find? (·.1 = colname)).bind Prod.snd

/-- `addScheduleEntry`: the name, the time and the script of the entry. -/
def addScheduleEntry (row : SqlRow) : Except Fault (CString × CString × CString) := do
  ASSERT_FAIL (row.length = 4)
  let name ← demand (DBGetFieldByName row (cstr "name"))
  let param ← demand (DBGetFieldByName row (cstr "param"))
  let scriptname ← demand (DBGetFieldByName row (cstr "scriptname"))
  return (name, param, scriptname)

/-- `schedulerLoad`, with the `DBReadRecords` it calls: the entries that are
added. The `MALLOC_FAIL` of the statement is not under the `if` that makes
it. -/
def schedulerLoad (a : ScheduleAnswers) :
    Except Fault (PassFail × List (CString × CString × CString)) :=
  match a.begins with
  | .FAIL => .error .fatal
  | .PASS => do
    let entries ← (a.rows.take 32).mapM addScheduleEntry
    return (if a.error then .FAIL else .PASS, entries)

section

variable {D σ P : Type} (env : Env D σ) (L : Lemon P) (lex : CString → List LexToken)
  (g : Globals)

/-- The mode of a script that the daemon runs. -/
def Globals.mode (g : Globals) : Mode := ⟨false, g.xplEventService, true⟩

/-- `execPcode`: `exit` under `exitOnErr`. -/
def execPcode (code : List Script.Pcode) (fuel : Nat) (world : σ) :
    Option (Except Fault (PassFail × σ)) :=
  (ParserExecPcode env g.mode (ParserExecFunction env g.mode) code fuel (.fresh [] world)).map
    fun (res, st) =>
      match st.fault with
      | some f => .error f
      | none => if res = .FAIL ∧ g.exitOnErr = true then .error .fatal else .ok (res, st.world)

/-- `parseAndExecScript`. The result is that of the parser. -/
def parseAndExecScript (hcl : CString) (fuel : Nat) (world : σ) :
    Option (Except Fault (PassFail × σ)) :=
  match ParserParseHCL L (.script (lex hcl)) .zero with
  | .error f => some (.error f)
  | .ok (.FAIL, _) => some (if g.exitOnErr then .error .fatal else .ok (.FAIL, world))
  | .ok (.PASS, parseCtrl) =>
    (execPcode env g parseCtrl.pcodeHeader.code fuel world).map fun res =>
      res.map fun (_, world) => (.PASS, world)

/-- The commands of `clientCommands`. -/
def runCommand (argv0 : CString) (args : List CString) (fuel : Nat) (world : σ) :
    Option (Deed PassFail) :=
  if argv0 = cstr "exec" then
    match args with
    | [] => some ([], .ok .FAIL)
    | name :: _ =>
      match g.DBFetchScript name with
      | none => some ([], .ok .FAIL)
      | some script => (parseAndExecScript env L lex g script fuel world).map fun res =>
        ([.exec script], res.map Prod.fst)
  else if argv0 = cstr "schreload" then
    some (if g.sch then ([.schreload], (schedulerLoad g.schedule).map fun _ => .PASS)
      else ([], .error .assertion))
  else some ([], .ok .FAIL)

/-- `interpretClientCommand` with the rest of the daemon. -/
def answerCommand (cl : CString) (fuel : Nat) (world : σ) : Option (Deed PassFail) :=
  match Util.splitString cl 32 with
  | .error f => some ([], .error f)
  | .ok [] => some ([], .error .nullDeref)
  | .ok (argv0 :: args) =>
    (runCommand env L lex g argv0 args fuel world).map fun deed =>
      match deed with
      | (es, .error f) => (es, .error f)
      | (es, .ok res) => (es ++ [.print (commandReply res)], .ok res)

end

/-! ## What is claimed of a command -/

/-- A reply: a line that says `ok:` or `er:`. -/
structure IsReply (text : CString) : Prop where
  line : ∃ body, text = body ++ [LF] ∧ LF ∉ body
  status : cstr "ok:" <+: text ∨ cstr "er:" <+: text

/-- What is printed. -/
def Event.printed : Event → Option CString
  | .print text => some text
  | _ => none

section

variable {D σ P : Type} (env : Env D σ) (L : Lemon P) (lex : CString → List LexToken)
  (g : Globals)

/-- The command comes to its end, and one line is sent, which is a reply. -/
def RepliesOnce (cl : CString) (world : σ) : Prop :=
  ∃ fuel es res text, answerCommand env L lex g cl fuel world = some (es, .ok res) ∧
    es.filterMap Event.printed = [text] ∧ IsReply text

/-- The schedule can be read: the transaction begins, and each row that is
read has its four columns. -/
structure ScheduleAnswers.Loads (a : ScheduleAnswers) : Prop where
  begins : a.begins = .PASS
  columns : ∀ row ∈ a.rows.take 32, row.length = 4
  fields : ∀ row ∈ a.rows.take 32, ∀ colname ∈ [cstr "name", cstr "param", cstr "scriptname"],
    (DBGetFieldByName row colname).isSome = true

/-- A script is complete, and read as `l`. -/
abbrev Reads (script : CString) (l : Script.StatementList) : Prop :=
  Script.ReadsAs (.script (lex script)) l

/-- A script is cut off: it can be continued to a complete one. -/
structure CutOff (script : CString) : Prop where
  clean : Script.Clean (Script.names (lex script))
  viable : Script.Viable (Script.names (lex script))
  incomplete : ¬ Script.Derivable (Script.names (lex script))

/-- What there is of a script that is cut off leaves the process alive. -/
structure RestEndures (c : Script.Cut) (world : σ) : Prop where
  /-- Some action has emitted an instruction. -/
  code : c.size ≠ 0
  /-- Each test that is reached without its jump lets its block run, and no
  `xplcmd` that is reached lacks its hash. -/
  goesOn : c.GoesOn env g.mode (Script.builtins env g.mode)
    (fun f args st => ¬ Script.MissingHash env f args st) (.fresh [] world)
  /-- It does not fail where that ends the daemon. -/
  stays : g.exitOnErr = true →
    (c.eval env g.mode (Script.builtins env g.mode) (.fresh [] world)).failReason = none

/-- **A script leaves the process alive**: it is refused, and the daemon
goes on; it is complete, no `xplcmd` it reaches lacks its hash, and it does
not fail where that ends the daemon; or it is cut off, and what there is of
it leaves the process alive. -/
inductive Endures (script : CString) (world : σ) : Prop
  | refused (clean : Script.Clean (Script.names (lex script)))
    (wrong : ¬ Script.Viable (Script.names (lex script))) (stays : g.exitOnErr = false)
  | complete (l : Script.StatementList) (reads : Reads lex script l)
    (hashes : l.EveryCall env g.mode (Script.builtins env g.mode)
      (fun f args st => ¬ Script.MissingHash env f args st) (.fresh [] world))
    (stays : g.exitOnErr = true →
      (l.eval env g.mode (Script.builtins env g.mode) (.fresh [] world)).failReason = none)
  | cutOff (cut : CutOff lex script) (c : Script.Cut)
    (yield : c.yield = Script.names (lex script)) (rest : RestEndures env g c world)

/-- **A command does not end the process**: it has a word; `schreload` finds
a scheduler and a schedule; and the script of an `exec` leaves the process
alive. -/
def Harmless (cl : CString) (world : σ) : Prop :=
  match Lib.words 32 cl with
  | [] => False
  | argv0 :: args => (argv0 = cstr "schreload" → g.sch = true ∧ g.schedule.Loads) ∧
    (argv0 = cstr "exec" → ∀ name script, args.head? = some name →
      g.DBFetchScript name = some script → Endures env lex g script world)

end

/-! ## Loading the schedule -/

theorem demand_ok_iff {α : Type} (o : Option α) : (∃ a, demand o = .ok a) ↔ o.isSome = true := by
  cases o with
  | none => exact iff_of_false (fun ⟨_, h⟩ => by cases h) Bool.false_ne_true
  | some a => exact iff_of_true ⟨a, rfl⟩ rfl

/-- Each of a list of steps returns, or the list does not. -/
theorem mapM_ok_iff {α β : Type} (f : α → Except Fault β) (as : List α) :
    (∃ bs, as.mapM f = .ok bs) ↔ ∀ a ∈ as, ∃ b, f a = .ok b := by
  induction as with
  | nil => exact iff_of_true ⟨[], rfl⟩ fun _ h => (List.not_mem_nil h).elim
  | cons a as ih =>
    rw [List.forall_mem_cons, ← ih, List.mapM_cons]
    constructor
    · rintro ⟨bs, h⟩
      obtain ⟨b, hb, hrest⟩ := bind_ok h
      obtain ⟨bs', hbs', -⟩ := bind_ok hrest
      exact ⟨⟨b, hb⟩, bs', hbs'⟩
    · rintro ⟨⟨b, hb⟩, bs, hbs⟩
      refine ⟨b :: bs, ?_⟩
      rw [hb, ok_bind, hbs]
      rfl

theorem addScheduleEntry_ok_iff (row : SqlRow) : (∃ e, addScheduleEntry row = .ok e) ↔
    row.length = 4 ∧ ∀ colname ∈ [cstr "name", cstr "param", cstr "scriptname"],
      (DBGetFieldByName row colname).isSome = true := by
  simp only [List.forall_mem_cons, List.not_mem_nil, false_implies, implies_true, and_true,
    ← demand_ok_iff]
  constructor
  · rintro ⟨e, h⟩
    obtain ⟨_, hlength, h⟩ := bind_ok h
    obtain ⟨name, hname, h⟩ := bind_ok h
    obtain ⟨param, hparam, h⟩ := bind_ok h
    obtain ⟨scriptname, hscriptname, -⟩ := bind_ok h
    refine ⟨?_, ⟨name, hname⟩, ⟨param, hparam⟩, scriptname, hscriptname⟩
    refine Decidable.byContradiction fun hnot => ?_
    rw [decide_eq_false hnot] at hlength
    cases hlength
  · rintro ⟨hlength, ⟨name, hname⟩, ⟨param, hparam⟩, scriptname, hscriptname⟩
    refine ⟨(name, param, scriptname), ?_⟩
    rw [addScheduleEntry, hlength, hname, hparam, hscriptname]
    rfl

theorem schedulerLoad_ok_iff (a : ScheduleAnswers) :
    (∃ r, schedulerLoad a = .ok r) ↔ a.Loads := by
  have hrows := mapM_ok_iff addScheduleEntry (a.rows.take 32)
  simp only [addScheduleEntry_ok_iff] at hrows
  unfold schedulerLoad
  cases hbegins : a.begins with
  | FAIL =>
    refine iff_of_false (fun ⟨_, h⟩ => by cases h) fun h => ?_
    have hpass := h.begins
    rw [hbegins] at hpass
    cases hpass
  | PASS =>
    constructor
    · rintro ⟨r, h⟩
      obtain ⟨entries, hentries, -⟩ := bind_ok h
      have hall := hrows.mp ⟨entries, hentries⟩
      exact ⟨hbegins, fun row hrow => (hall row hrow).1, fun row hrow => (hall row hrow).2⟩
    · rintro ⟨-, hcolumns, hfields⟩
      obtain ⟨entries, hentries⟩ := hrows.mpr fun row hrow => ⟨hcolumns row hrow, hfields row hrow⟩
      rw [hentries]
      exact ⟨_, rfl⟩

/-! ## Running a script -/

section

variable {D σ P : Type} {env : Env D σ} {L : Lemon P} {lex : CString → List LexToken}
  {g : Globals}

theorem Reads.clean {script : CString} {l : Script.StatementList} (h : Reads lex script l) :
    Script.Clean (Script.names (lex script)) := by
  obtain ⟨toks, hfile, -, hc⟩ := h
  cases hfile
  exact hc

theorem Reads.yield_eq {script : CString} {l : Script.StatementList} (h : Reads lex script l) :
    l.yield = Script.names (lex script) := by
  obtain ⟨toks, hfile, hyield, -⟩ := h
  cases hfile
  exact hyield

theorem Reads.derivable {script : CString} {l : Script.StatementList} (h : Reads lex script l) :
    Script.Derivable (Script.names (lex script)) :=
  ⟨.statementlist l, h.yield_eq⟩

/-- What `execPcode` makes of the store that a run leaves. -/
def execResult (g : Globals) (st : Store σ) : Except Fault (PassFail × σ) :=
  match st.fault with
  | some f => .error f
  | none =>
    let res : PassFail := if st.failReason.isSome then .FAIL else .PASS
    if res = .FAIL ∧ g.exitOnErr = true then .error .fatal else .ok (res, st.world)

theorem execResult_of_unlined {st st' : Store σ} (h : st.unlined = st'.unlined) :
    execResult g st = execResult g st' := by
  simp only [execResult, Store.fault_of_unlined h, Store.failed_of_unlined h,
    Store.world_of_unlined h]

theorem execResult_ok_iff (g : Globals) (st : Store σ) : (∃ r, execResult g st = .ok r) ↔
    st.fault = none ∧ (g.exitOnErr = true → st.failReason = none) := by
  unfold execResult
  cases st.fault with
  | some f => exact iff_of_false (fun ⟨_, h⟩ => by cases h) fun h => by cases h.1
  | none =>
    rw [and_iff_right rfl]
    cases hreason : st.failReason with
    | none => exact iff_of_true ⟨_, rfl⟩ fun _ => rfl
    | some reason =>
      cases hexit : g.exitOnErr with
      | true => exact iff_of_false (fun ⟨_, h⟩ => by cases h) fun h => by cases h rfl
      | false => exact iff_of_true ⟨_, rfl⟩ fun h => by cases h

/-- Code that does what `eval` does is run to an end, which is that of
`eval`. -/
theorem execPcode_does {code : List Script.Pcode} {eval : Store σ → Store σ}
    (h : Script.Does env g.mode code eval) (world : σ) (r : Except Fault (PassFail × σ)) :
    (∃ fuel, execPcode env g code fuel world = some r) ↔
      r = execResult g (eval (.fresh [] world)) := by
  have hexec : ∀ {fuel res st}, ParserExecPcode env g.mode (ParserExecFunction env g.mode) code fuel
      (.fresh [] world) = some (res, st) →
      execPcode env g code fuel world = some (execResult g (eval (.fresh [] world))) := by
    intro fuel res st hrun
    obtain ⟨rfl, hst⟩ := h.result rfl hrun
    rw [← execResult_of_unlined hst, execPcode, hrun]
    rfl
  constructor
  · rintro ⟨fuel, hr⟩
    obtain ⟨⟨res, st⟩, hrun, -⟩ := Option.map_eq_some_iff.mp hr
    rw [hexec hrun] at hr
    exact (Option.some.inj hr).symm
  · rintro rfl
    obtain ⟨st, hrun, -⟩ := h (.fresh [] world) rfl _ (Nat.lt_succ_self _)
    exact ⟨_, hexec hrun⟩

variable (env L lex g) in
/-- The script passes the parser, and its code returns. -/
def CodeReturns (script : CString) (world : σ) : Prop :=
  ∃ pc fuel res, ParserParseHCL L (.script (lex script)) .zero = .ok (.PASS, pc) ∧
    execPcode env g pc.pcodeHeader.code fuel world = some (.ok res)

/-- A script that passes the parser returns if its code does. -/
theorem codeReturns_iff {script : CString} {pc : Script.ParseCtrl}
    (hparse : ParserParseHCL L (.script (lex script)) .zero = .ok (.PASS, pc)) (world : σ) :
    CodeReturns env L lex g script world ↔
      ∃ fuel res, execPcode env g pc.pcodeHeader.code fuel world = some (.ok res) := by
  constructor
  · rintro ⟨pc', fuel, res, hparse', hexec⟩
    rw [hparse] at hparse'
    cases hparse'
    exact ⟨fuel, res, hexec⟩
  · rintro ⟨fuel, res, hexec⟩
    exact ⟨pc, fuel, res, hparse, hexec⟩

theorem codeReturns_does {script : CString} {pc : Script.ParseCtrl} {eval : Store σ → Store σ}
    (hparse : ParserParseHCL L (.script (lex script)) .zero = .ok (.PASS, pc))
    (h : Script.Does env g.mode pc.pcodeHeader.code eval) (world : σ) :
    CodeReturns env L lex g script world ↔ (eval (.fresh [] world)).fault = none ∧
      (g.exitOnErr = true → (eval (.fresh [] world)).failReason = none) := by
  rw [codeReturns_iff hparse, ← execResult_ok_iff]
  constructor
  · rintro ⟨fuel, r, hexec⟩
    exact ⟨r, ((execPcode_does h world (.ok r)).mp ⟨fuel, hexec⟩).symm⟩
  · rintro ⟨r, hr⟩
    obtain ⟨fuel, hexec⟩ := (execPcode_does h world (.ok r)).mpr hr.symm
    exact ⟨fuel, r, hexec⟩

/-- Without code there is nothing to return from. -/
theorem codeReturns_empty {script : CString} {pc : Script.ParseCtrl}
    (hparse : ParserParseHCL L (.script (lex script)) .zero = .ok (.PASS, pc))
    (hempty : pc.pcodeHeader.code = []) (world : σ) : ¬ CodeReturns env L lex g script world := by
  rw [codeReturns_iff hparse, hempty]
  rintro ⟨fuel, r, hexec⟩
  cases hexec

/-- A complete script returns if its evaluation leaves the process alive,
and does not fail where that ends the daemon. -/
theorem Reads.codeReturns_iff (h : L.Documented) {script : CString} {l : Script.StatementList}
    (hread : Reads lex script l) (world : σ) : CodeReturns env L lex g script world ↔
      l.EveryCall env g.mode (Script.builtins env g.mode)
        (fun f args st => ¬ Script.MissingHash env f args st) (.fresh [] world) ∧
      (g.exitOnErr = true →
        (l.eval env g.mode (Script.builtins env g.mode) (.fresh [] world)).failReason = none) := by
  obtain ⟨pc, hparse, -, -, hcode⟩ := Script.ParserParseHCL_realizes h hread.yield_eq hread.clean
  rw [← Script.eval_fault_iff env g.mode l rfl, codeReturns_does hparse (hcode env g.mode)]

/-- A script that is cut off returns if what there is of it leaves the
process alive. -/
theorem CutOff.codeReturns_iff (h : L.Documented) {script : CString} (hcut : CutOff lex script)
    {c : Script.Cut} (hyield : c.yield = Script.names (lex script)) (world : σ) :
    CodeReturns env L lex g script world ↔ RestEndures env g c world := by
  obtain ⟨pc, hparse, -, hlength, hcode⟩ :=
    Script.ParserParseHCL_cutOff h hyield hcut.viable hcut.incomplete hcut.clean
  by_cases hsize : c.size = 0
  · have hempty : ¬ CodeReturns env L lex g script world :=
      codeReturns_empty hparse (List.eq_nil_of_length_eq_zero (hlength.trans hsize)) world
    exact iff_of_false hempty fun hrest => hrest.code hsize
  · rw [codeReturns_does hparse (hcode hsize env g.mode), Script.cut_fault_iff env g.mode c rfl]
    exact ⟨fun hboth => ⟨hsize, hboth.1, hboth.2⟩, fun hrest => ⟨hrest.goesOn, hrest.stays⟩⟩

variable (L lex) in
/-- What comes out of parsing a script. -/
inductive Parsed (script : CString) : Prop
  | ended (unclean : ¬ Script.Clean (Script.names (lex script)))
    (parses : ∃ f, ParserParseHCL L (.script (lex script)) .zero = .error f)
  | refused (clean : Script.Clean (Script.names (lex script)))
    (wrong : ¬ Script.Viable (Script.names (lex script)))
    (parses : ∃ pc, ParserParseHCL L (.script (lex script)) .zero = .ok (.FAIL, pc))
  | cutOff (cut : CutOff lex script) (c : Script.Cut)
    (yield : c.yield = Script.names (lex script))
    (parses : ∃ pc, ParserParseHCL L (.script (lex script)) .zero = .ok (.PASS, pc) ∧
      pc.failReason.isSome = true)
  | badchar (complete : Script.Derivable (Script.names (lex script)))
    (nothing : ∀ l, ¬ Reads lex script l)
    (parses : ∃ pc, ParserParseHCL L (.script (lex script)) .zero = .ok (.PASS, pc) ∧
      pc.pcodeHeader.code = [])
  | complete (l : Script.StatementList) (reads : Reads lex script l)
    (parses : ∃ pc, ParserParseHCL L (.script (lex script)) .zero = .ok (.PASS, pc) ∧
      pc.failReason = none ∧ Script.Realizes pc.pcodeHeader.code l)

theorem parsed (h : L.Documented) (lex : CString → List LexToken) (script : CString) :
    Parsed L lex script := by
  by_cases hc : Script.Clean (Script.names (lex script))
  · by_cases hd : Script.Derivable (Script.names (lex script))
    · have hderivable := hd
      obtain ⟨l | c, hyield⟩ := hd
      · obtain ⟨pc, hparse, hnone, -, hcode⟩ := Script.ParserParseHCL_realizes h hyield hc
        exact .complete l ⟨lex script, rfl, hyield, hc⟩ ⟨pc, hparse, hnone, hcode⟩
      · obtain ⟨pc, hparse, -, hempty⟩ := Script.ParserParseHCL_badchar h hyield.symm hc
        refine .badchar hderivable (fun l hread => ?_) ⟨pc, hparse, hempty⟩
        refine l.badchar_not_mem c ?_
        rw [hread.yield_eq, ← hyield]
        exact List.mem_singleton_self _
    · by_cases hv : Script.Viable (Script.names (lex script))
      · obtain ⟨c, hyield⟩ := hv.exists_cut hd
        obtain ⟨pc, hparse, hsome, -⟩ := Script.ParserParseHCL_truncated h hv hd hc
        exact .cutOff ⟨hc, hv, hd⟩ c hyield ⟨pc, hparse, hsome⟩
      · obtain ⟨pc, hparse, -⟩ := Script.ParserParseHCL_rejected h hv hc
        exact .refused hc hv ⟨pc, hparse⟩
  · exact .ended hc (Script.ParserParseHCL_unclean h hc)

/-- `parseAndExecScript` returns with such a script if its code does. -/
theorem parseAndExecScript_pass {script : CString} {pc : Script.ParseCtrl}
    (hparse : ParserParseHCL L (.script (lex script)) .zero = .ok (.PASS, pc)) (world : σ) :
    (∃ fuel r, parseAndExecScript env L lex g script fuel world = some (.ok r)) ↔
      CodeReturns env L lex g script world := by
  rw [codeReturns_iff hparse]
  unfold parseAndExecScript
  rw [hparse]
  constructor
  · rintro ⟨fuel, r, h⟩
    obtain ⟨res, hexec, hres⟩ := Option.map_eq_some_iff.mp h
    obtain ⟨r', rfl, -⟩ := map_ok hres
    exact ⟨fuel, r', hexec⟩
  · rintro ⟨fuel, r, hexec⟩
    refine ⟨fuel, (.PASS, r.2), ?_⟩
    simp only [hexec, Option.map_some]
    rfl

/-- **`parseAndExecScript` returns exactly if** the script leaves the
process alive. -/
theorem parseAndExecScript_ok_iff (h : L.Documented) (script : CString) (world : σ) :
    (∃ fuel r, parseAndExecScript env L lex g script fuel world = some (.ok r)) ↔
      Endures env lex g script world := by
  cases parsed h lex script with
  | ended hunclean hparse =>
    obtain ⟨f, hparse⟩ := hparse
    constructor
    · rintro ⟨fuel, r, hrun⟩
      rw [parseAndExecScript, hparse] at hrun
      cases hrun
    · rintro (⟨hc, -, -⟩ | ⟨l, hread, -, -⟩ | ⟨hcut, -⟩)
      · exact (hunclean hc).elim
      · exact (hunclean hread.clean).elim
      · exact (hunclean hcut.clean).elim
  | refused hc hv hparse =>
    obtain ⟨pc, hparse⟩ := hparse
    constructor
    · rintro ⟨fuel, r, hrun⟩
      refine .refused hc hv ?_
      rw [parseAndExecScript, hparse] at hrun
      cases hexit : g.exitOnErr with
      | false => rfl
      | true =>
        rw [hexit] at hrun
        cases hrun
    · rintro (⟨-, -, hstays⟩ | ⟨l, hread, -, -⟩ | ⟨hcut, -⟩)
      · refine ⟨0, (.FAIL, world), ?_⟩
        rw [parseAndExecScript, hparse, hstays]
        rfl
      · exact (hv hread.derivable.viable).elim
      · exact (hv hcut.viable).elim
  | cutOff hcut c hyield hparse =>
    obtain ⟨pc, hparse, -⟩ := hparse
    rw [parseAndExecScript_pass hparse]
    constructor
    · exact fun hreturns => .cutOff hcut c hyield ((hcut.codeReturns_iff h hyield world).mp hreturns)
    · rintro (⟨-, hwrong, -⟩ | ⟨l, hread, -, -⟩ | ⟨-, c', hyield', hrest⟩)
      · exact (hwrong hcut.viable).elim
      · exact (hcut.incomplete hread.derivable).elim
      · exact (hcut.codeReturns_iff h hyield' world).mpr hrest
  | badchar hd hnothing hparse =>
    obtain ⟨pc, hparse, hempty⟩ := hparse
    rw [parseAndExecScript_pass hparse]
    refine iff_of_false (codeReturns_empty hparse hempty world) ?_
    rintro (⟨-, hwrong, -⟩ | ⟨l, hread, -, -⟩ | ⟨hcut, -⟩)
    · exact hwrong hd.viable
    · exact hnothing l hread
    · exact hcut.incomplete hd
  | complete l hread hparse =>
    obtain ⟨pc, hparse, -⟩ := hparse
    rw [parseAndExecScript_pass hparse]
    constructor
    · intro hreturns
      obtain ⟨hhashes, hstays⟩ := (hread.codeReturns_iff h world).mp hreturns
      exact .complete l hread hhashes hstays
    · rintro (⟨-, hwrong, -⟩ | ⟨l', hread', hhashes, hstays⟩ | ⟨hcut, -⟩)
      · exact (hwrong hread.derivable.viable).elim
      · exact (hread'.codeReturns_iff h world).mpr ⟨hhashes, hstays⟩
      · exact (hcut.incomplete hread.derivable).elim

/-! ## One reply -/

theorem commandReply_isReply (res : PassFail) : IsReply (commandReply res) := by
  cases res with
  | PASS => exact ⟨⟨cstr "ok:", rfl, by decide⟩, .inl ⟨[LF], rfl⟩⟩
  | FAIL =>
    exact ⟨⟨cstr "er:Command not recognized", rfl, by decide⟩,
      .inr ⟨cstr "Command not recognized\n", rfl⟩⟩

variable (env L lex g) in
/-- What a command can do, and what comes of it. -/
inductive Ran (argv0 : CString) (args : List CString) (fuel : Nat) (world : σ)
    (r : Except Fault PassFail) : List Event → Prop
  | refused
      (hexec : argv0 = cstr "exec" → ∀ name ∈ args.head?, g.DBFetchScript name = none)
      (hreload : argv0 ≠ cstr "schreload") (hr : r = .ok .FAIL) :
      Ran argv0 args fuel world r []
  | executed {name script : CString} {done : Except Fault (PassFail × σ)}
      (hexec : argv0 = cstr "exec") (hname : args.head? = some name)
      (hfetch : g.DBFetchScript name = some script)
      (hdone : parseAndExecScript env L lex g script fuel world = some done)
      (hr : r = done.map Prod.fst) : Ran argv0 args fuel world r [.exec script]
  | reloaded (hreload : argv0 = cstr "schreload") (hsch : g.sch = true)
      (hr : r = (schedulerLoad g.schedule).map fun _ => .PASS) :
      Ran argv0 args fuel world r [.schreload]
  | stopped (hreload : argv0 = cstr "schreload") (hsch : g.sch = false)
      (hr : r = .error .assertion) : Ran argv0 args fuel world r []

theorem runCommand_ran {argv0 : CString} {args : List CString} {fuel : Nat} {world : σ}
    {es : List Event} {r : Except Fault PassFail}
    (h : runCommand env L lex g argv0 args fuel world = some (es, r)) :
    Ran env L lex g argv0 args fuel world r es := by
  have hdistinct : cstr "exec" ≠ cstr "schreload" := by decide
  unfold runCommand at h
  by_cases hexec : argv0 = cstr "exec"
  · rw [if_pos hexec] at h
    have hreload : argv0 ≠ cstr "schreload" := hexec ▸ hdistinct
    cases args with
    | nil =>
      cases h
      exact .refused (fun _ name hname => by cases hname) hreload rfl
    | cons name args =>
      simp only at h
      cases hfetch : g.DBFetchScript name with
      | none =>
        rw [hfetch] at h
        cases h
        refine .refused (fun _ name' hname => ?_) hreload rfl
        cases hname
        exact hfetch
      | some script =>
        rw [hfetch] at h
        obtain ⟨done, hdone, hr⟩ := Option.map_eq_some_iff.mp h
        cases hr
        exact .executed hexec rfl hfetch hdone rfl
  · rw [if_neg hexec] at h
    by_cases hreload : argv0 = cstr "schreload"
    · rw [if_pos hreload] at h
      cases hsch : g.sch with
      | true =>
        rw [hsch] at h
        cases h
        exact .reloaded hreload hsch rfl
      | false =>
        rw [hsch] at h
        cases h
        exact .stopped hreload hsch rfl
    · rw [if_neg hreload] at h
      cases h
      exact .refused (fun he => (hexec he).elim) hreload rfl

theorem Ran.runCommand_eq {argv0 : CString} {args : List CString} {fuel : Nat} {world : σ}
    {es : List Event} {r : Except Fault PassFail}
    (h : Ran env L lex g argv0 args fuel world r es) :
    runCommand env L lex g argv0 args fuel world = some (es, r) := by
  unfold runCommand
  cases h with
  | refused hexec hreload hr =>
    subst hr
    by_cases he : argv0 = cstr "exec"
    · rw [if_pos he]
      cases args with
      | nil => rfl
      | cons name args => simp only [hexec he name rfl]
    · rw [if_neg he, if_neg hreload]
  | executed hexec hname hfetch hdone hr =>
    obtain ⟨args, rfl⟩ := List.head?_eq_some_iff.mp hname
    rw [if_pos hexec]
    simp only [hfetch, hdone, Option.map_some, hr]
  | reloaded hreload hsch hr =>
    rw [hreload, if_neg (by decide), if_pos rfl, hsch, hr]
    rfl
  | stopped hreload hsch hr =>
    rw [hreload, if_neg (by decide), if_pos rfl, hsch, hr]
    rfl

/-- A command prints nothing before its reply. -/
theorem Ran.quiet {argv0 : CString} {args : List CString} {fuel : Nat} {world : σ}
    {es : List Event} {r : Except Fault PassFail}
    (h : Ran env L lex g argv0 args fuel world r es) : es.filterMap Event.printed = [] := by
  cases h with
  | refused | executed | reloaded | stopped => rfl

/-- A command comes to its end. -/
theorem runCommand_ok_iff (h : L.Documented) (argv0 : CString) (args : List CString) (world : σ) :
    (∃ fuel es res, runCommand env L lex g argv0 args fuel world = some (es, .ok res)) ↔
      (argv0 = cstr "schreload" → g.sch = true ∧ g.schedule.Loads) ∧
      (argv0 = cstr "exec" → ∀ name script, args.head? = some name →
        g.DBFetchScript name = some script → Endures env lex g script world) := by
  have hdistinct : cstr "exec" ≠ cstr "schreload" := by decide
  constructor
  · rintro ⟨fuel, es, res, hrun⟩
    cases runCommand_ran hrun with
    | refused hexec hreload hr =>
      refine ⟨fun hs => (hreload hs).elim, fun he name script hname hscript => ?_⟩
      rw [hexec he name hname] at hscript
      cases hscript
    | executed hexec hname hfetch hdone hr =>
      obtain ⟨r, rfl, -⟩ := map_ok hr.symm
      refine ⟨fun hs => absurd (hexec.symm.trans hs) hdistinct, ?_⟩
      intro _ name' script' hname' hfetch'
      rw [hname] at hname'
      cases hname'
      rw [hfetch] at hfetch'
      cases hfetch'
      exact (parseAndExecScript_ok_iff h _ world).mp ⟨fuel, r, hdone⟩
    | reloaded hreload hsch hr =>
      obtain ⟨r, hload, -⟩ := map_ok hr.symm
      exact ⟨fun _ => ⟨hsch, (schedulerLoad_ok_iff _).mp ⟨r, hload⟩⟩,
        fun he => absurd (he.symm.trans hreload) hdistinct⟩
    | stopped _ _ hr => cases hr
  · rintro ⟨hreload, hexec⟩
    by_cases hs : argv0 = cstr "schreload"
    · obtain ⟨hsch, hloads⟩ := hreload hs
      obtain ⟨r, hload⟩ := (schedulerLoad_ok_iff _).mpr hloads
      exact ⟨0, _, .PASS, (Ran.reloaded hs hsch (by rw [hload]; rfl)).runCommand_eq⟩
    by_cases he : argv0 = cstr "exec" ∧ ∃ name script, args.head? = some name ∧
        g.DBFetchScript name = some script
    · obtain ⟨he, name, script, hname, hfetch⟩ := he
      obtain ⟨fuel, done, hdone⟩ := (parseAndExecScript_ok_iff h script world).mpr
        (hexec he name script hname hfetch)
      exact ⟨fuel, _, done.1, (Ran.executed he hname hfetch hdone rfl).runCommand_eq⟩
    · refine ⟨0, [], .FAIL, (Ran.refused (fun hx name hname => ?_) hs rfl).runCommand_eq⟩
      cases hfetch : g.DBFetchScript name with
      | none => rfl
      | some script => exact (he ⟨hx, name, script, hname, hfetch⟩).elim

/-- **A command gets exactly one reply if and only if** it has a word, its
`schreload` finds a scheduler and a schedule, and its script leaves the
process alive. -/
theorem repliesOnce_iff (h : L.Documented) (cl : CString) (world : σ) :
    RepliesOnce env L lex g cl world ↔ Harmless env lex g cl world := by
  unfold RepliesOnce Harmless answerCommand
  rw [Util.splitString_eq]
  cases Lib.words 32 cl with
  | nil =>
    refine iff_of_false ?_ id
    rintro ⟨fuel, es, res, text, hrun, -⟩
    cases hrun
  | cons argv0 args =>
    simp only
    rw [← runCommand_ok_iff h argv0 args world]
    constructor
    · rintro ⟨fuel, es, res, text, hrun, -⟩
      obtain ⟨⟨es', r⟩, hcommand, hdeed⟩ := Option.map_eq_some_iff.mp hrun
      cases r with
      | error f => cases hdeed
      | ok res' => exact ⟨fuel, es', res', hcommand⟩
    · rintro ⟨fuel, es, res, hcommand⟩
      refine ⟨fuel, es ++ [.print (commandReply res)], res, commandReply res, ?_, ?_,
        commandReply_isReply res⟩
      · rw [hcommand]
        rfl
      · rw [List.filterMap_append, (runCommand_ran hcommand).quiet]
        rfl

/-- The listener, told how the daemon answers, runs the same command. -/
theorem Ran.clientCommand_eq {argv0 : CString} {args : List CString} {fuel : Nat} {world : σ}
    {es : List Event} {res : PassFail} (h : Ran env L lex g argv0 args fuel world (.ok res) es)
    (saved : PassFail) : ∃ fetched executed,
      clientCommand ⟨fetched, executed, saved, g.sch⟩ argv0 args = (es, .ok res) := by
  unfold clientCommand
  cases h with
  | refused hexec hreload hr =>
    cases hr
    refine ⟨none, .FAIL, ?_⟩
    by_cases he : argv0 = cstr "exec"
    · rw [if_pos he]
      cases args with
      | nil => rfl
      | cons name args => rfl
    · rw [if_neg he, if_neg hreload]
  | @executed name script _ hexec hname hfetch hdone hr =>
    obtain ⟨args, rfl⟩ := List.head?_eq_some_iff.mp hname
    obtain ⟨done, rfl, rfl⟩ := map_ok hr.symm
    refine ⟨some script, done.1, ?_⟩
    rw [if_pos hexec]
  | reloaded hreload hsch hr =>
    obtain ⟨r, -, rfl⟩ := map_ok hr.symm
    refine ⟨none, .FAIL, ?_⟩
    rw [hreload, if_neg (by decide), if_pos rfl, hsch]
    rfl
  | stopped _ _ hr => cases hr

/-- The listener, told how the daemon answers, does the same. -/
theorem answerCommand_interprets {cl : CString} {fuel : Nat} {world : σ} {es : List Event}
    {res : PassFail} (h : answerCommand env L lex g cl fuel world = some (es, .ok res))
    (saved : PassFail) : ∃ fetched executed,
      interpretClientCommand ⟨fetched, executed, saved, g.sch⟩ cl = (es, .ok res) := by
  unfold answerCommand at h
  unfold interpretClientCommand
  rw [Util.splitString_eq] at h ⊢
  cases hwords : Lib.words 32 cl with
  | nil =>
    rw [hwords] at h
    cases h
  | cons argv0 args =>
    rw [hwords] at h
    obtain ⟨⟨es', r⟩, hcommand, hdeed⟩ := Option.map_eq_some_iff.mp h
    cases r with
    | error f => cases hdeed
    | ok res' =>
      obtain ⟨fetched, executed, hclient⟩ := (runCommand_ran hcommand).clientCommand_eq saved
      refine ⟨fetched, executed, ?_⟩
      simp only [hclient]
      exact hdeed

/-! ## The reply to `exec` -/

variable (env L lex g) in
/-- The command is answered with `ok:`. -/
def RepliesOk (cl : CString) (world : σ) : Prop :=
  ∃ fuel es res text, answerCommand env L lex g cl fuel world = some (es, .ok res) ∧
    .print text ∈ es ∧ cstr "ok:" <+: text

variable (env L lex g) in
/-- A script is parsed without an error, and runs to its end without a fail
reason. -/
def RunsToEnd (script : CString) (world : σ) : Prop :=
  ∃ pc, ParserParseHCL L (.script (lex script)) .zero = .ok (.PASS, pc) ∧ pc.failReason = none ∧
    ∃ fuel res st, ParserExecPcode env g.mode (ParserExecFunction env g.mode)
      pc.pcodeHeader.code fuel (.fresh [] world) = some (res, st) ∧ st.fault = none ∧
      st.failReason = none

variable (env L lex g) in
/-- **The reply is truthful**: `ok:` if and only if there is such a script,
and it runs to its end. -/
def Truthful (name cl : CString) (world : σ) : Prop :=
  RepliesOk env L lex g cl world ↔
    ∃ script, g.DBFetchScript name = some script ∧ RunsToEnd env L lex g script world

variable (env lex g) in
/-- **No failure of a script stays unnoticed**: if it is complete and no
`xplcmd` it reaches lacks its hash, it does not fail, or that ends the
daemon; and if it is cut off, what there is of it ends the daemon. -/
structure Unmasked (script : CString) (world : σ) : Prop where
  complete : ∀ l, Reads lex script l →
    l.EveryCall env g.mode (Script.builtins env g.mode)
      (fun f args st => ¬ Script.MissingHash env f args st) (.fresh [] world) →
    g.exitOnErr = false →
    (l.eval env g.mode (Script.builtins env g.mode) (.fresh [] world)).failReason = none
  cutOff : CutOff lex script → ∀ c : Script.Cut, c.yield = Script.names (lex script) →
    ¬ RestEndures env g c world

/-- A script has the result of the parser where its code returns. -/
theorem parseAndExecScript_pass_iff (script : CString) (world : σ) :
    (∃ fuel world', parseAndExecScript env L lex g script fuel world =
      some (.ok (.PASS, world'))) ↔ CodeReturns env L lex g script world := by
  constructor
  · rintro ⟨fuel, world', h⟩
    unfold parseAndExecScript at h
    split at h
    · cases h
    · cases hexit : g.exitOnErr with
      | true =>
        rw [hexit] at h
        cases h
      | false =>
        rw [hexit] at h
        cases h
    · rename_i pc hparse
      obtain ⟨res, hexec, hres⟩ := Option.map_eq_some_iff.mp h
      obtain ⟨r, rfl, -⟩ := map_ok hres
      exact ⟨pc, fuel, r, hparse, hexec⟩
  · rintro ⟨pc, fuel, r, hparse, hexec⟩
    refine ⟨fuel, r.2, ?_⟩
    unfold parseAndExecScript
    rw [hparse]
    simp only [hexec, Option.map_some]
    rfl

/-- The reply is `ok:` if the script passes the parser and its code returns. -/
theorem repliesOk_iff {name cl : CString} {args : List CString}
    (hcl : Lib.words 32 cl = cstr "exec" :: name :: args) (world : σ) :
    RepliesOk env L lex g cl world ↔
      ∃ script, g.DBFetchScript name = some script ∧ CodeReturns env L lex g script world := by
  have hfail : ¬ cstr "ok:" <+: commandReply .FAIL := by decide
  simp only [← parseAndExecScript_pass_iff]
  unfold RepliesOk answerCommand
  rw [Util.splitString_eq, hcl]
  constructor
  · rintro ⟨fuel, es, res, text, hrun, hprint, hok⟩
    obtain ⟨⟨es', r⟩, hcommand, hdeed⟩ := Option.map_eq_some_iff.mp hrun
    have hran := runCommand_ran hcommand
    cases r with
    | error f => cases hdeed
    | ok res' =>
      cases hdeed
      -- all that is printed is the reply
      have hreply : text = commandReply res := by
        rcases List.mem_append.mp hprint with hprint | hprint
        · have hprinted : text ∈ es'.filterMap Event.printed :=
            List.mem_filterMap.mpr ⟨.print text, hprint, rfl⟩
          rw [hran.quiet] at hprinted
          cases hprinted
        · cases List.mem_singleton.mp hprint
          rfl
      subst hreply
      cases hran with
      | refused _ _ hr =>
        cases hr
        exact (hfail hok).elim
      | executed _ hname hfetch hdone hr =>
        cases hname
        obtain ⟨⟨p, world'⟩, rfl, rfl⟩ := map_ok hr.symm
        cases p with
        | PASS => exact ⟨_, hfetch, fuel, world', hdone⟩
        | FAIL => exact (hfail hok).elim
      | reloaded hreload => exact absurd hreload (by decide)
      | stopped hreload => exact absurd hreload (by decide)
  · rintro ⟨script, hfetch, fuel, world', hparse⟩
    have hran : Ran env L lex g (cstr "exec") (name :: args) fuel world (.ok .PASS)
        [.exec script] := .executed rfl rfl hfetch hparse rfl
    refine ⟨fuel, [.exec script, .print (commandReply .PASS)], .PASS, commandReply .PASS, ?_,
      List.mem_cons_of_mem _ List.mem_cons_self, ⟨[LF], rfl⟩⟩
    simp only [hran.runCommand_eq, Option.map_some]
    rfl

/-- A script that runs to its end returns. -/
theorem RunsToEnd.codeReturns {script : CString} {world : σ}
    (h : RunsToEnd env L lex g script world) : CodeReturns env L lex g script world := by
  obtain ⟨pc, hparse, -, fuel, res, st, hexec, hfault, hreason⟩ := h
  obtain rfl := Script.ParserExecPcode_passes hexec hfault hreason
  refine ⟨pc, fuel, (.PASS, st.world), hparse, ?_⟩
  unfold execPcode
  rw [hexec]
  simp only [Option.map_some, hfault, reduceCtorEq, false_and, if_false]

/-- A complete script runs to its end if it leaves the process alive and
does not fail. -/
theorem Reads.runsToEnd_iff (h : L.Documented) {script : CString} {l : Script.StatementList}
    (hread : Reads lex script l) (world : σ) : RunsToEnd env L lex g script world ↔
      l.EveryCall env g.mode (Script.builtins env g.mode)
        (fun f args st => ¬ Script.MissingHash env f args st) (.fresh [] world) ∧
      (l.eval env g.mode (Script.builtins env g.mode) (.fresh [] world)).failReason = none := by
  obtain ⟨pc, hparse, hnone, -, hcode⟩ := Script.ParserParseHCL_realizes h hread.yield_eq hread.clean
  rw [← Script.eval_fault_iff env g.mode l rfl]
  constructor
  · rintro ⟨pc', hparse', -, fuel, res, st, hexec, hfault, hst⟩
    rw [hparse] at hparse'
    cases hparse'
    have hsame := ((hcode env g.mode).result rfl hexec).2
    exact ⟨Store.fault_of_unlined hsame ▸ hfault, (Store.passed_of_unlined hsame).mp hst⟩
  · rintro ⟨hfault, hst⟩
    obtain ⟨st, hexec, hsame⟩ := hcode env g.mode (.fresh [] world) rfl _ (Nat.lt_succ_self _)
    exact ⟨pc, hparse, hnone, _, _, st, hexec, (Store.fault_of_unlined hsame).trans hfault,
      (Store.passed_of_unlined hsame).mpr hst⟩

/-- A script that returns has run to its end exactly if no failure stays
unnoticed. -/
theorem codeReturns_runsToEnd_iff (h : L.Documented) (script : CString) (world : σ) :
    (CodeReturns env L lex g script world → RunsToEnd env L lex g script world) ↔
      Unmasked env lex g script world := by
  cases parsed h lex script with
  | ended hunclean hparse =>
    obtain ⟨f, hparse⟩ := hparse
    refine iff_of_true ?_
      ⟨fun l hread => (hunclean hread.clean).elim, fun hcut => (hunclean hcut.clean).elim⟩
    rintro ⟨pc, fuel, r, hpass, -⟩
    rw [hparse] at hpass
    cases hpass
  | refused hc hv hparse =>
    obtain ⟨pc, hparse⟩ := hparse
    refine iff_of_true ?_
      ⟨fun l hread => (hv hread.derivable.viable).elim, fun hcut => (hv hcut.viable).elim⟩
    rintro ⟨pc', fuel, r, hpass, -⟩
    rw [hparse] at hpass
    cases hpass
  | cutOff hcut c hyield hparse =>
    obtain ⟨pc, hparse, hsome⟩ := hparse
    have hnot : ¬ RunsToEnd env L lex g script world := by
      rintro ⟨pc', hparse', hnone, -⟩
      rw [hparse] at hparse'
      cases hparse'
      rw [hnone] at hsome
      cases hsome
    constructor
    · intro hruns
      refine ⟨fun l hread => (hcut.incomplete hread.derivable).elim, fun _ c' hyield' hrest => ?_⟩
      exact hnot (hruns ((hcut.codeReturns_iff h hyield' world).mpr hrest))
    · intro hunmasked hreturns
      exact (hunmasked.cutOff hcut c hyield ((hcut.codeReturns_iff h hyield world).mp hreturns)).elim
  | badchar hd hnothing hparse =>
    obtain ⟨pc, hparse, hempty⟩ := hparse
    exact iff_of_true (fun hreturns => (codeReturns_empty hparse hempty world hreturns).elim)
      ⟨fun l hread => (hnothing l hread).elim, fun hcut => (hcut.incomplete hd).elim⟩
  | complete l hread hparse =>
    constructor
    · intro hruns
      refine ⟨fun l' hread' hhashes hexit => ?_, fun hcut => (hcut.incomplete hread.derivable).elim⟩
      have hreturns := (hread'.codeReturns_iff (g := g) h world).mpr ⟨hhashes, fun hexit' => by
        rw [hexit] at hexit'
        cases hexit'⟩
      exact ((hread'.runsToEnd_iff h world).mp (hruns hreturns)).2
    · intro hunmasked hreturns
      obtain ⟨hhashes, hstays⟩ := (hread.codeReturns_iff h world).mp hreturns
      refine (hread.runsToEnd_iff h world).mpr ⟨hhashes, ?_⟩
      cases hexit : g.exitOnErr with
      | true => exact hstays hexit
      | false => exact hunmasked.complete l hread hhashes hexit

/-- **The reply to `exec` is truthful exactly if** no failure of the script
stays unnoticed. -/
theorem truthful_iff (h : L.Documented) {name cl : CString} {args : List CString}
    (hcl : Lib.words 32 cl = cstr "exec" :: name :: args) (world : σ) :
    Truthful env L lex g name cl world ↔ ∀ script, g.DBFetchScript name = some script →
      Unmasked env lex g script world := by
  unfold Truthful
  rw [repliesOk_iff hcl]
  simp only [← codeReturns_runsToEnd_iff h]
  constructor
  · intro htruthful script hfetch hrest
    obtain ⟨script', hfetch', hruns⟩ := htruthful.mp ⟨script, hfetch, hrest⟩
    rw [hfetch] at hfetch'
    cases hfetch'
    exact hruns
  · intro hall
    constructor
    · rintro ⟨script, hfetch, hrest⟩
      exact ⟨script, hfetch, hall script hfetch hrest⟩
    · rintro ⟨script, hfetch, hruns⟩
      exact ⟨script, hfetch, hruns.codeReturns⟩

end

/-! ## A daemon without a scheduler, and a script that fails -/

/-- A name of one letter. -/
def letter (c : CChar) : Script.Bareword := ⟨[c], List.cons_ne_nil c []⟩

/-- The assignment `$a{b} = $c{d};`. -/
def undefinedAssignment : Script.StatementList :=
  .initial (.assignment ⟨letter 97, letter 98⟩ (.hash ⟨letter 99, letter 100⟩) 1)

/-- A script as a text. -/
def textOf (l : Script.StatementList) : CString := Script.spaced l.yield

/-- A daemon before the hub is confirmed, with two scripts in its
database. -/
def sampleGlobals : Globals where
  sch := false
  exitOnErr := false
  xplEventService := none
  DBFetchScript name :=
    if name = cstr "s" then some (textOf undefinedAssignment)
    else if name = cstr "t" then some (textOf Script.sampleScript)
    else none
  schedule := ⟨.PASS, [], false⟩

/-- A text that is the printed tree holds it. -/
theorem reads_textOf {l : Script.StatementList}
    (h : ∀ t ∈ l.yield, t.Spelled ∧ Script.runsOn t.yytext 32 = false)
    (hempty : Script.emptyLiteral ∉ l.yield) (hnul : ∀ t ∈ l.yield, 0 ∉ t.yytext) :
    Reads (Script.yylex 1) (textOf l) l := by
  have hnames : Script.names (Script.yylex 1 (textOf l)) = l.yield := by
    rw [textOf, Script.yylex_of_laidOut (Script.laidOut_spaced 1 h), Script.names, List.map_map]
    exact List.map_id _
  refine ⟨Script.yylex 1 (textOf l), rfl, hnames.symm, ?_⟩
  rw [hnames]
  exact .of_not_mem hempty hnul

theorem reads_sampleScript :
    Reads (Script.yylex 1) (textOf Script.sampleScript) Script.sampleScript :=
  reads_textOf (by decide +kernel) (by decide) (by decide)

theorem reads_undefinedAssignment :
    Reads (Script.yylex 1) (textOf undefinedAssignment) undefinedAssignment :=
  reads_textOf (by decide +kernel) (by decide) (by decide)

/-- A stored script that sends a message is answered. -/
theorem repliesOnce_sampleScript :
    RepliesOnce Env.inert Lemon.deferred (Script.yylex 1) sampleGlobals (cstr "exec t") () := by
  refine (repliesOnce_iff Script.Lemon.deferred_documented _ _).mpr
    ⟨fun hs => absurd hs (by decide), fun _ name script hname hscript => ?_⟩
  cases hname
  cases hscript
  refine .complete Script.sampleScript reads_sampleScript ⟨trivial, fun _ hmissing => ?_⟩
    fun hexit => by cases hexit
  obtain ⟨-, k₁, tag, k₂, class_, k₃, type_, k₄, hash, hargs, -, hnone⟩ := hmissing
  cases hargs
  cases hnone

/-- A command line without a word ends the process. -/
theorem emptyCommand_not_answered : ¬ ∀ (g : Globals) cl,
    RepliesOnce Env.inert Lemon.deferred (Script.yylex 1) g cl () := by
  intro h
  obtain ⟨fuel, es, res, text, hrun, -⟩ := h sampleGlobals []
  rw [answerCommand, Util.splitString_eq] at hrun
  cases hrun

/-- The reply to a stored script that sends a message is truthful. -/
theorem truthful_sampleScript :
    Truthful Env.inert Lemon.deferred (Script.yylex 1) sampleGlobals (cstr "t") (cstr "exec t") () := by
  refine (truthful_iff Script.Lemon.deferred_documented rfl _).mpr fun script hscript => ?_
  cases hscript
  refine ⟨fun l hread _ _ => ?_, fun hcut => (hcut.incomplete reads_sampleScript.derivable).elim⟩
  have hsame : l.unlined = Script.sampleScript.unlined :=
    Script.StatementList.unlined_of_yield (hread.yield_eq.trans reads_sampleScript.yield_eq.symm)
  have heval : (l.eval Env.inert sampleGlobals.mode (Script.builtins .inert sampleGlobals.mode)
      (.fresh [] ())).unlined = _ := l.eval_unlined _
  rw [hsame, ← Script.sampleScript.eval_unlined] at heval
  exact (Store.passed_of_unlined heval).mpr rfl

/-- **A script that fails at run time is reported as done.** -/
theorem failedScript_reported : ¬ ∀ (g : Globals) name cl args,
    Lib.words 32 cl = cstr "exec" :: name :: args →
      Truthful Env.inert Lemon.deferred (Script.yylex 1) g name cl () := by
  intro h
  have hwords : Lib.words 32 (cstr "exec s") = [cstr "exec", cstr "s"] := rfl
  have hreturns : CodeReturns Env.inert Lemon.deferred (Script.yylex 1) sampleGlobals
      (textOf undefinedAssignment) () :=
    (reads_undefinedAssignment.codeReturns_iff Script.Lemon.deferred_documented ()).mpr
      ⟨trivial, fun hexit => by cases hexit⟩
  obtain ⟨script, hscript, hruns⟩ := (h sampleGlobals (cstr "s") (cstr "exec s") [] hwords).mp
    ((repliesOk_iff hwords ()).mpr ⟨_, rfl, hreturns⟩)
  cases hscript
  cases ((reads_undefinedAssignment.runsToEnd_iff Script.Lemon.deferred_documented ()).mp hruns).2

end XplEvent.Control
