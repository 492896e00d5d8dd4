import XplEvent.Script.Correctness

/-!
# The built-in functions on argument lists

`spawn` and `xplcmd` find their arguments by walking back from the call.
Here they are functions of the argument list, and `ParserExecFunction`
implements them: every argument of the grammar has a value, so the
assertions on the fetches hold, and what is left of a call is its arity,
its tag and its hash.
-/

namespace XplEvent.Script

variable {D σ : Type} (env : Env D σ) (mode : Mode)

/-- `spawn` with its command fetched. -/
def spawnCommand (command : CString) (st : Store σ) : Store σ :=
  let (res, world) := env.UtilSpawn command st.world
  let st := { st with world := world, trace := st.trace ++ [Event.spawnProcess command] }
  match res with
  | .PASS => st
  | .FAIL => { st with failReason := some (.spawnFailed command) }

/-- `spawn` by its arguments. -/
def spawnArgs (args : List Arg) (st : Store σ) : Except Fault (Store σ) :=
  match args with
  | [(_, some command)] => .ok (spawnCommand env command st)
  | _ => .ok { st with failReason := some (.spawnArgs args.length) }

/-- `sendXPLCommand` by its arguments. -/
def xplcmdArgs (args : List Arg) (st : Store σ) : Except Fault (Store σ) :=
  match args with
  | [(_, some tag), (_, some class_), (_, some type_), (_, some hash)] =>
    sendCommand env mode st tag class_ type_ hash
  | _ => .ok { st with failReason := some (.xplcmdArgs args.length) }

/-- The two built-in functions by their arguments. -/
def builtins : Builtin σ
  | .TOK_SPAWN => spawnArgs env
  | .TOK_XPLCMD => xplcmdArgs env mode

variable {env mode}

theorem Argument.getValue (a : Argument) (lineNo : Int) (seq : Nat) (depth : Int) (st : Store σ) :
    ParserPcodeGetValue env mode st (a.instr lineNo seq depth) = .ok (a.arg.2, st) := by
  rcases a with (t | t | ⟨wide, body⟩) | n <;> rfl

/-- Every argument of the grammar has a value. -/
theorem Argument.arg_some (a : Argument) : ∃ text, a.arg = (a.arg.1, some text) := by
  cases a with
  | rvalue r => exact ⟨r.text, rfl⟩
  | hashref n => exact ⟨n.text, rfl⟩

theorem demandValue_arg {p : Pcode} {a : Argument} {lineNo : Int} {seq : Nat} {depth : Int}
    {text : CString} (st : Store σ) (hp : p = a.instr lineNo seq depth)
    (ha : a.arg = (a.arg.1, some text)) :
    demandValue env mode (.ok p) st = .ok (text, st) := by
  have hvalue : a.arg.2 = some text := by rw [ha]
  simp only [demandValue, hp, Argument.getValue, hvalue, bind, Except.bind]
  rfl

theorem ArgumentList.length_args (l : ArgumentList) : l.args.length = l.size := by
  induction l with
  | initial a => rfl
  | successive l a ih =>
    simp only [ArgumentList.args, List.length_append, ih, List.length_singleton]
    rfl

theorem ArgumentList.size_pos (l : ArgumentList) : 0 < l.size := by
  cases l with
  | initial a => exact Nat.one_pos
  | successive l a => exact Nat.succ_pos _

/-- With a wrong number of arguments a call only says so. -/
theorem spawnArgs_arity {args : List Arg} (h : args.length ≠ 1) (st : Store σ) :
    spawnArgs env args st = .ok { st with failReason := some (.spawnArgs args.length) } := by
  unfold spawnArgs
  split
  · exact absurd rfl h
  · rfl

theorem xplcmdArgs_arity {args : List Arg} (h : args.length ≠ 4) (st : Store σ) :
    xplcmdArgs env mode args st =
      .ok { st with failReason := some (.xplcmdArgs args.length) } := by
  unfold xplcmdArgs
  split
  · exact absurd rfl h
  · rfl

theorem spawn_eq {code : List Pcode} {base : Nat} {args : ArgumentList} {lineNo : Int}
    {depth : Int} {ex : ExecState σ} (hseg : Lib.Segment code base (args.layout lineNo base depth))
    (hcount : ex.pushCount = args.size) :
    spawn env mode code (base + args.size) ex =
      (spawnArgs env args.args ex.store).map fun st => { ex with store := st } := by
  cases args with
  | successive l a =>
    have hne : (l.successive a).args.length ≠ 1 := by
      have hpos := l.size_pos
      simp only [ArgumentList.length_args, ArgumentList.size]
      omega
    rw [spawnArgs_arity hne, spawn, hcount, ArgumentList.length_args]
    rw [ArgumentList.length_args] at hne
    rw [if_pos hne]
    rfl
  | initial a =>
    obtain ⟨text, ha⟩ := a.arg_some
    have hprev : prev code (base + 1) 1 = .ok (a.instr lineNo base depth) :=
      prev_segment hseg (Nat.le_refl 1) rfl
    have hargs : (ArgumentList.initial a).args = [(a.arg.1, some text)] := by
      rw [← ha]
      rfl
    have hone : ¬ ex.pushCount ≠ 1 := fun h => h hcount
    rw [hargs, spawn, if_neg hone, ArgumentList.size, hprev]
    simp only [demandValue_arg ex.store rfl ha, spawnArgs, spawnCommand, bind, Except.bind]
    cases (env.UtilSpawn text ex.store.world).1 <;> rfl

theorem ArgumentList.of_size_four {l : ArgumentList} (h : l.size = 4) :
    ∃ a b c d, l = (((initial a).successive b).successive c).successive d := by
  rcases l with a | ⟨a | ⟨a | ⟨a | ⟨l, e⟩, b⟩, c⟩, d⟩
  · cases h
  · cases h
  · cases h
  · exact ⟨a, b, c, d, rfl⟩
  · have hpos := l.size_pos
    simp only [size] at h
    omega

theorem sendXPLCommand_eq {code : List Pcode} {base : Nat} {args : ArgumentList} {lineNo : Int}
    {depth : Int} {ex : ExecState σ} (hseg : Lib.Segment code base (args.layout lineNo base depth))
    (hcount : ex.pushCount = args.size) :
    sendXPLCommand env mode code (base + args.size) ex =
      (xplcmdArgs env mode args.args ex.store).map fun st => { ex with store := st } := by
  by_cases hne : args.args.length ≠ 4
  · rw [xplcmdArgs_arity hne, sendXPLCommand, hcount, ArgumentList.length_args]
    rw [ArgumentList.length_args] at hne
    rw [if_pos hne]
    rfl
  · have hfour : args.size = 4 := by
      rw [← ArgumentList.length_args]
      exact Decidable.not_not.mp hne
    obtain ⟨a, b, c, d, rfl⟩ := args.of_size_four hfour
    obtain ⟨tag, ha⟩ := a.arg_some
    obtain ⟨class_, hb⟩ := b.arg_some
    obtain ⟨type_, hc⟩ := c.arg_some
    obtain ⟨hash, hd⟩ := d.arg_some
    have hprevd : prev code (base + 4) 1 = .ok (d.instr lineNo (base + 3) depth) :=
      prev_segment hseg (by simp only [ArgumentList.layout_length, hfour]; omega) rfl
    have hprevc : prev code (base + 4) 2 = .ok (c.instr lineNo (base + 2) depth) :=
      prev_segment hseg (by simp only [ArgumentList.layout_length, hfour]; omega) rfl
    have hprevb : prev code (base + 4) 3 = .ok (b.instr lineNo (base + 1) depth) :=
      prev_segment hseg (by simp only [ArgumentList.layout_length, hfour]; omega) rfl
    have hpreva : prev code (base + 4) 4 = .ok (a.instr lineNo base depth) :=
      prev_segment hseg (by simp only [ArgumentList.layout_length, hfour]; omega) rfl
    have hargs : (((ArgumentList.initial a).successive b).successive c |>.successive d).args =
        [(a.arg.1, some tag), (b.arg.1, some class_), (c.arg.1, some type_),
          (d.arg.1, some hash)] := by
      rw [← ha, ← hb, ← hc, ← hd]
      rfl
    have hcount' : ¬ ex.pushCount ≠ 4 := fun h => h (hcount.trans hfour)
    rw [hargs, sendXPLCommand, if_neg hcount', hfour, hprevd, hprevc, hprevb, hpreva]
    simp only [demandValue_arg _ rfl ha, demandValue_arg _ rfl hb, demandValue_arg _ rfl hc,
      demandValue_arg _ rfl hd, xplcmdArgs, bind, Except.bind, pure, Except.pure]
    cases sendCommand env mode ex.store tag class_ type_ hash <;> rfl

/-- **The interpreter's built-in functions are those on argument lists.** -/
theorem ParserExecFunction_implements :
    Implements (ParserExecFunction env mode) (builtins env mode) := by
  intro code base f args lineNo depth ex hseg hcount
  have hget := hseg.right.get
  rw [ArgumentList.layout_length] at hget
  simp only [ParserExecFunction, hget, deref_some, bind, Except.bind]
  cases f with
  | TOK_XPLCMD => exact sendXPLCommand_eq hseg.left hcount
  | TOK_SPAWN => exact spawn_eq hseg.left hcount

/-! ## The assertion a call can fail -/

variable (env) in
/-- The one call that ends the process: an `xplcmd` with its four
arguments and a tag that splits, whose hash is not in the symbol table. -/
def MissingHash (f : BuiltinFunction) (args : List Arg) (st : Store σ) : Prop :=
  f = .TOK_XPLCMD ∧ ∃ k₁ tag k₂ class_ k₃ type_ k₄ hash,
    args = [(k₁, some tag), (k₂, some class_), (k₃, some type_), (k₄, some hash)] ∧
    (ParserSplitXPLTag tag).isSome = true ∧ findHash env.UtilHash st.steHead hash = none

theorem spawnCommand_fault (command : CString) (st : Store σ) :
    (spawnCommand env command st).fault = st.fault := by
  simp only [spawnCommand]
  cases (env.UtilSpawn command st.world).1 <;> rfl

theorem sendCommand_fault {st st' : Store σ} {tag class_ type_ hash : CString}
    (h : sendCommand env mode st tag class_ type_ hash = .ok st') : st'.fault = st.fault := by
  unfold sendCommand at h
  split at h
  · cases h
    rfl
  split at h
  · cases h
  · cases h
    cases mode.xplServicePtr <;> rfl

/-- The built-in functions do not clear the mark of a failed assertion. -/
theorem builtins_fault (f : BuiltinFunction) (args : List Arg) (st st' : Store σ)
    (h : builtins env mode f args st = .ok st') : st'.fault = st.fault := by
  cases f with
  | TOK_SPAWN =>
    simp only [builtins, spawnArgs] at h
    split at h
    · cases h
      exact spawnCommand_fault _ st
    · cases h
      rfl
  | TOK_XPLCMD =>
    simp only [builtins, xplcmdArgs] at h
    split at h
    · exact sendCommand_fault h
    · cases h
      rfl

/-- A command fails its assertion exactly when the tag splits and the
hash is missing. -/
theorem sendCommand_error_iff {st : Store σ} {tag class_ type_ hash : CString} :
    (∃ e, sendCommand env mode st tag class_ type_ hash = .error e) ↔
      (ParserSplitXPLTag tag).isSome = true ∧ findHash env.UtilHash st.steHead hash = none := by
  unfold sendCommand
  rcases ParserSplitXPLTag tag with _ | ⟨vendor, device, instance_⟩
  · simp only [reduceCtorEq, exists_false, Option.isSome_none, Bool.false_eq_true, false_and]
  cases findHash env.UtilHash st.steHead hash with
  | none => simp only [Except.error.injEq, exists_eq', Option.isSome_some, and_self]
  | some se => simp only [reduceCtorEq, exists_false, and_false]

theorem builtins_error_iff {f : BuiltinFunction} {args : List Arg} {st : Store σ} :
    MissingHash env f args st ↔ ∃ e, builtins env mode f args st = .error e := by
  cases f with
  | TOK_SPAWN =>
    constructor
    · rintro ⟨h, -⟩
      cases h
    · rintro ⟨e, h⟩
      simp only [builtins, spawnArgs] at h
      split at h <;> cases h
  | TOK_XPLCMD =>
    constructor
    · rintro ⟨-, k₁, tag, k₂, class_, k₃, type_, k₄, hash, rfl, h⟩
      exact sendCommand_error_iff.mpr h
    · rintro ⟨e, h⟩
      simp only [builtins, xplcmdArgs] at h
      split at h
      · rename_i k₁ tag k₂ class_ k₃ type_ k₄ hash
        exact ⟨rfl, k₁, tag, k₂, class_, k₃, type_, k₄, hash, rfl,
          sendCommand_error_iff.mp ⟨e, h⟩⟩
      · cases h

/-- A call keeps the process alive unless its hash is missing. -/
theorem call_fault_iff {f : BuiltinFunction} {args : List Arg} {st : Store σ}
    (hst : st.fault = none) :
    (call (builtins env mode) f args st).fault = none ↔ ¬ MissingHash env f args st := by
  have hmissing : MissingHash env f args st ↔
      ∃ e, builtins env mode f args { st with trace := st.trace ++ [.builtinCall f args] } =
        .error e :=
    (builtins_error_iff : MissingHash env f args
      { st with trace := st.trace ++ [.builtinCall f args] } ↔ _)
  rw [hmissing, call]
  cases hcall : builtins env mode f args { st with trace := st.trace ++ [.builtinCall f args] } with
  | ok st' =>
    have hfault := builtins_fault f args _ st' hcall
    simp only [hfault, hst, reduceCtorEq, exists_false, not_false_eq_true]
  | error e =>
    simp only [reduceCtorEq, Except.error.injEq, exists_eq', not_true_eq_false]

/-! ## A run that does not kill the daemon -/

/-- The interpreter, with its own built-in functions, comes back: with
`FAIL` and a fail reason or with `PASS` and none, and no assertion has
failed. -/
def Survives (env : Env D σ) (mode : Mode) (code : List Pcode) (st : Store σ) : Prop :=
  ∀ fuel, code.length < fuel → ∃ res st',
    ParserExecPcode env mode (ParserExecFunction env mode) code fuel st = some (res, st') ∧
      st'.fault = none ∧ (res = .FAIL ↔ st'.failReason.isSome = true)

/-- What the actions return is the layout. -/
theorem StatementList.code_of_reduce {l : StatementList} {pc : ParseCtrl}
    (h : (Start.statementlist l).reduce .zero = .ok pc) : pc.pcodeHeader.code = l.layout 0 0 := by
  have hzero := l.reduce_zero (l.reduce_returns h)
  rw [Start.reduce, hzero] at h
  cases h
  rfl

/-- The process is alive behind a script if no call it reaches lacks its
hash. -/
theorem eval_fault_iff (env : Env D σ) (mode : Mode) (l : StatementList) {st : Store σ}
    (hrun : st.stopped = false) : (l.eval env mode (builtins env mode) st).fault = none ↔
      l.EveryCall env mode (builtins env mode) (fun f args st => ¬ MissingHash env f args st) st :=
  l.everyCall_iff (watched_fault builtins_fault) (fun _ _ _ _ hst => call_fault_iff hst) hrun
    (st.fault_of_running hrun)

/-- **A compiled script kills the daemon exactly when it reaches an
`xplcmd` whose hash is missing**, whatever the tables hold, with or
without a database and a service. -/
theorem survives_iff {env : Env D σ} {mode : Mode} {l : StatementList} {pc : ParseCtrl}
    {st : Store σ} (h : (Start.statementlist l).reduce .zero = .ok pc)
    (hrun : st.stopped = false) :
    Survives env mode pc.pcodeHeader.code st ↔
      l.EveryCall env mode (builtins env mode) (fun f args st => ¬ MissingHash env f args st) st := by
  have hcalls := eval_fault_iff env mode l hrun
  have hexec : ∀ fuel, l.size < fuel →
      ParserExecPcode env mode (ParserExecFunction env mode) (l.layout 0 0) fuel st = some
        (if (l.eval env mode (builtins env mode) st).failReason.isSome then .FAIL else .PASS,
          l.eval env mode (builtins env mode) st) :=
    fun fuel hfuel => l.exec_layout ParserExecFunction_implements hrun hfuel
  rw [← hcalls, StatementList.code_of_reduce h]
  constructor
  · intro hsurvives
    obtain ⟨res, st', hres, hst', -⟩ := hsurvives (l.size + 1)
      (by rw [l.layout_length]; exact Nat.lt_succ_self _)
    rw [hexec _ (Nat.lt_succ_self _)] at hres
    cases hres
    exact hst'
  · intro hnone fuel hfuel
    rw [l.layout_length] at hfuel
    refine ⟨_, _, hexec fuel hfuel, hnone, ?_⟩
    cases (l.eval env mode (builtins env mode) st).failReason
    · decide
    · exact iff_of_true rfl rfl

/-- A fresh store over a symbol table. -/
def Store.fresh (steHead : List ParseHashSTE) (world : σ) : Store σ :=
  ⟨steHead, none, none, world, []⟩

/-- The call `xplcmd("a-b.c", "d", "e", \%f);`. -/
def sampleCommand : StatementList :=
  .initial (.function .TOK_XPLCMD
    (((ArgumentList.initial (.rvalue (.stringlit false (cstr "a-b.c")))).successive
      (.rvalue (.stringlit false (cstr "d")))).successive
      (.rvalue (.stringlit false (cstr "e"))) |>.successive
      (.hashref ⟨cstr "f", by decide⟩)) 1)

/-- With `%f` in the table the call is harmless. -/
theorem survives_sampleCommand :
    Survives Env.inert ⟨false, none, false⟩ (sampleCommand.layout 0 0)
        (.fresh [⟨0, cstr "f", []⟩] ()) ↔
      sampleCommand.EveryCall Env.inert ⟨false, none, false⟩ (builtins .inert ⟨false, none, false⟩)
        (fun f args st => ¬ MissingHash Env.inert f args st) (.fresh [⟨0, cstr "f", []⟩] ()) := by
  have hreduce : (Start.statementlist sampleCommand).reduce .zero = _ :=
    sampleCommand.reduce_zero rfl
  exact survives_iff hreduce rfl

/-- With an empty table it ends the process. -/
theorem sampleCommand_kills :
    ¬ ∀ (mode : Mode) (l : StatementList) (pc : ParseCtrl) (st : Store Unit),
      (Start.statementlist l).reduce .zero = .ok pc → st.stopped = false →
        Survives Env.inert mode pc.pcodeHeader.code st := by
  intro h
  obtain ⟨res, st', hres, hfault, -⟩ := h ⟨false, none, false⟩ sampleCommand _ (.fresh [] ())
    (sampleCommand.reduce_zero rfl) rfl 6 (Nat.lt_succ_self 5)
  cases hres
  cases hfault

end XplEvent.Script
