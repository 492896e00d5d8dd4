import XplEvent.Script.Realize

/-!
# `ParserCheckSyntax` — the dry run

The syntax check parses a file and runs its code with no service and no
database, with undefined variables only warned about. It is meant to have
no effect outside the process. `xplcmd` tests for the service before it
sends; the test of `spawn` is disabled, so a script that reaches a
`spawn` with its one argument starts the process while it is checked.
-/

namespace XplEvent.Script

variable {D σ P : Type}

/-- The mode of a dry run. -/
abbrev dryRun : Mode := ⟨true, none, false⟩

/-- `ParserCheckSyntax`: the text it returns, or the assertion it fails,
with the store its run leaves. -/
def ParserCheckSyntax (env : Env D σ) (L : Lemon P) (file : ScriptInput) (fuel : Nat) (world : σ) :
    Option (Except Fault (Option CString) × Store σ) :=
  match ParserParseHCL L file .zero with
  | .error f => some (.error f, .fresh [] world)
  | .ok (_, parseCtrl) =>
    match parseCtrl.failReason with
    | some reason => some (.ok (some (cstr "Parse error: " ++ reason.text)), .fresh [] world)
    | none =>
      (ParserExecPcode env dryRun (ParserExecFunction env dryRun) parseCtrl.pcodeHeader.code fuel
        (.fresh [] world)).map fun (_, st) =>
          (match st.fault with
            | some f => .error f
            | none => .ok (st.failReason.map fun r => cstr "Pcode execution error: " ++ r.text), st)

/-- No message, no database row and no process comes out of a check,
however long it runs. -/
def DryRunIsSilent (env : Env D σ) (L : Lemon P) (file : ScriptInput) (world : σ) : Prop :=
  ∀ fuel res st, ParserCheckSyntax env L file fuel world = some (res, st) →
    ∀ e ∈ st.trace, e.isExternal = false

/-- The file holds the script `l`: its tokens are those of the tree, and
the process survives the parse. -/
def ReadsAs (file : ScriptInput) (l : StatementList) : Prop :=
  ∃ toks, file = .script toks ∧ l.yield = names toks ∧ Clean (names toks)

/-- The call that starts a process. -/
def Spawns (f : BuiltinFunction) (args : List Arg) : Prop :=
  f = .TOK_SPAWN ∧ ∃ k command, args = [(k, some command)]

/-! ## The trace of a call -/

theorem sendCommand_trace {env : Env D σ} {mode : Mode} {st st' : Store σ}
    {tag class_ type_ hash : CString}
    (h : sendCommand env mode st tag class_ type_ hash = .ok st') :
    ∃ es, st'.trace = st.trace ++ es ∧ (mode.xplServicePtr = none → es = []) := by
  unfold sendCommand at h
  split at h
  · cases h
    exact ⟨[], (List.append_nil _).symm, fun _ => rfl⟩
  split at h
  · cases h
  · cases h
    cases mode.xplServicePtr with
    | none => exact ⟨[], (List.append_nil _).symm, fun _ => rfl⟩
    | some xs => exact ⟨_, rfl, fun hnone => nomatch hnone⟩

theorem spawnCommand_trace (env : Env D σ) (command : CString) (st : Store σ) :
    (spawnCommand env command st).trace = st.trace ++ [.spawnProcess command] := by
  simp only [spawnCommand]
  cases (env.UtilSpawn command st.world).1 <;> rfl

/-- What a call adds to the trace; in a dry run, a process at most. -/
theorem builtins_trace {env : Env D σ} {mode : Mode} {f : BuiltinFunction} {args : List Arg}
    {st st' : Store σ} (h : builtins env mode f args st = .ok st') :
    ∃ es, st'.trace = st.trace ++ es ∧ (mode.xplServicePtr = none → ¬ Spawns f args → es = []) ∧
      (Spawns f args → ∃ e ∈ es, e.isExternal = true) := by
  cases f with
  | TOK_SPAWN =>
    simp only [builtins, spawnArgs] at h
    split at h
    · rename_i k command
      cases h
      exact ⟨_, spawnCommand_trace env command st, fun _ hno => absurd ⟨rfl, k, command, rfl⟩ hno,
        fun _ => ⟨_, List.mem_singleton_self _, rfl⟩⟩
    · rename_i hargs
      cases h
      refine ⟨[], (List.append_nil _).symm, fun _ _ => rfl, ?_⟩
      rintro ⟨-, k, command, rfl⟩
      exact absurd rfl (hargs k command)
  | TOK_XPLCMD =>
    have hno : ¬ Spawns .TOK_XPLCMD args := by
      rintro ⟨hf, -⟩
      cases hf
    simp only [builtins, xplcmdArgs] at h
    split at h
    · obtain ⟨es, htrace, hes⟩ := sendCommand_trace h
      exact ⟨es, htrace, fun hnone _ => hes hnone, fun hs => absurd hs hno⟩
    · cases h
      exact ⟨[], (List.append_nil _).symm, fun _ _ => rfl, fun hs => absurd hs hno⟩

/-- A spawn is carried out: its argument is all it needs. -/
theorem builtins_spawns (env : Env D σ) (mode : Mode) {f : BuiltinFunction} {args : List Arg}
    (h : Spawns f args) (st : Store σ) : ∃ st', builtins env mode f args st = .ok st' := by
  obtain ⟨rfl, k, command, rfl⟩ := h
  exact ⟨_, rfl⟩

/-- In a dry run a call leaves the process alone unless it spawns. -/
theorem call_silent_iff {env : Env D σ} {f : BuiltinFunction} {args : List Arg} {st : Store σ}
    (hst : ∀ e ∈ st.trace, e.isExternal = false) :
    (∀ e ∈ (call (builtins env dryRun) f args st).trace, e.isExternal = false) ↔
      ¬ Spawns f args := by
  let st₁ : Store σ := { st with trace := st.trace ++ [.builtinCall f args] }
  have hst₁ : ∀ e ∈ st₁.trace, e.isExternal = false := by
    intro e he
    rcases List.mem_append.mp he with he | he
    · exact hst e he
    · rw [List.mem_singleton.mp he]
      rfl
  rw [call]
  cases hcall : builtins env dryRun f args st₁ with
  | ok st' =>
    obtain ⟨es, htrace, hquiet, hloud⟩ := builtins_trace hcall
    simp only [htrace]
    constructor
    · intro h hs
      obtain ⟨e, he, hext⟩ := hloud hs
      rw [h e (List.mem_append_right _ he)] at hext
      cases hext
    · intro hno
      rw [hquiet rfl hno, List.append_nil]
      exact hst₁
  | error f =>
    refine iff_of_true hst fun hs => ?_
    obtain ⟨st', hok⟩ := builtins_spawns env dryRun hs st₁
    rw [hok] at hcall
    cases hcall

/-! ## The check as a whole -/

/-- A file that parses without a fail reason holds a script, or one bad
character, for which no code is emitted. -/
theorem ParserParseHCL_reads {L : Lemon P} (h : L.Documented) {file : ScriptInput}
    {res : PassFail} {pc : ParseCtrl} (hparse : ParserParseHCL L file .zero = .ok (res, pc))
    (hnone : pc.failReason = none) :
    (∃ l, ReadsAs file l ∧ Realizes pc.pcodeHeader.code l) ∨ pc.pcodeHeader.code = [] := by
  have hsome : ¬ pc.failReason.isSome = true := by rw [hnone]; exact Bool.false_ne_true
  cases file with
  | missing name strerror =>
    cases hparse
    exact absurd rfl hsome
  | script toks =>
    by_cases hc : Clean (names toks)
    · by_cases hd : Derivable (names toks)
      · obtain ⟨l | c, hyield⟩ := hd
        · obtain ⟨pc', hpass, -, -, hcode⟩ := ParserParseHCL_realizes h hyield hc
          rw [hpass] at hparse
          cases hparse
          exact .inl ⟨l, ⟨toks, rfl, hyield, hc⟩, hcode⟩
        · obtain ⟨pc', hpass, -, hempty⟩ := ParserParseHCL_badchar h hyield.symm hc
          rw [hpass] at hparse
          cases hparse
          exact .inr hempty
      · by_cases hv : Viable (names toks)
        · obtain ⟨pc', hpass, hreason, -⟩ := ParserParseHCL_truncated h hv hd hc
          rw [hpass] at hparse
          cases hparse
          exact absurd hreason hsome
        · obtain ⟨pc', hfail, hreason⟩ := ParserParseHCL_rejected h hv hc
          rw [hfail] at hparse
          cases hparse
          exact absurd hreason hsome
    · obtain ⟨f, hf⟩ := ParserParseHCL_unclean h hc
      rw [hf] at hparse
      cases hparse

/-- A script that the file holds is evaluated as a dry run. -/
theorem ParserCheckSyntax_reads (env : Env D σ) {L : Lemon P} (h : L.Documented)
    {file : ScriptInput} {l : StatementList} (hl : ReadsAs file l) (world : σ) :
    ∃ fuel res st, ParserCheckSyntax env L file fuel world = some (res, st) ∧
      st.trace = (l.eval env dryRun (builtins env dryRun) (.fresh [] world)).trace := by
  obtain ⟨toks, rfl, hyield, hc⟩ := hl
  obtain ⟨pc, hparse, hnone, -, hcode⟩ := ParserParseHCL_realizes h hyield hc
  obtain ⟨st, hexec, hst⟩ := hcode env dryRun (.fresh [] world) rfl _ (Nat.lt_succ_self _)
  obtain ⟨res, hcheck⟩ : ∃ res, ParserCheckSyntax env L (.script toks)
      (pc.pcodeHeader.code.length + 1) world = some (res, st) := by
    rw [ParserCheckSyntax, hparse]
    simp only [hnone, hexec, Option.map_some]
    exact ⟨_, rfl⟩
  exact ⟨_, res, st, hcheck, Store.trace_of_unlined hst⟩

/-- A check does nothing but evaluate the script that the file holds. -/
theorem ParserCheckSyntax_trace {env : Env D σ} {L : Lemon P} (h : L.Documented)
    {file : ScriptInput} {fuel : Nat} {world : σ} {res : Except Fault (Option CString)}
    {st : Store σ} (hcheck : ParserCheckSyntax env L file fuel world = some (res, st)) :
    st.trace = [] ∨ ∃ l, ReadsAs file l ∧
      st.trace = (l.eval env dryRun (builtins env dryRun) (.fresh [] world)).trace := by
  rw [ParserCheckSyntax] at hcheck
  cases hparse : ParserParseHCL L file .zero with
  | error f =>
    rw [hparse] at hcheck
    cases hcheck
    exact .inl rfl
  | ok r =>
    obtain ⟨res', pc⟩ := r
    rw [hparse] at hcheck
    simp only at hcheck
    cases hreason : pc.failReason with
    | some reason =>
      rw [hreason] at hcheck
      cases hcheck
      exact .inl rfl
    | none =>
      rw [hreason] at hcheck
      obtain ⟨⟨res₁, st₁⟩, hexec, hst⟩ := Option.map_eq_some_iff.mp hcheck
      cases hst
      rcases ParserParseHCL_reads h hparse hreason with ⟨l, hl, hcode⟩ | hempty
      · exact .inr ⟨l, hl, Store.trace_of_unlined ((hcode env dryRun).result rfl hexec).2⟩
      · rw [hempty] at hexec
        cases hexec
        exact .inl rfl

/-- A dry run leaves the process alone exactly when no call it reaches
spawns. -/
theorem eval_silent_iff (env : Env D σ) (l : StatementList) (world : σ) :
    (∀ e ∈ (l.eval env dryRun (builtins env dryRun) (.fresh [] world)).trace,
      e.isExternal = false) ↔
    l.EveryCall env dryRun (builtins env dryRun) (fun f args _ => ¬ Spawns f args)
      (.fresh [] world) := by
  have hadds : ∀ f args (st st' : Store σ), builtins env dryRun f args st = .ok st' →
      ∃ es, st'.trace = st.trace ++ es := by
    intro f args st st' hok
    obtain ⟨es, htrace, -⟩ := builtins_trace hok
    exact ⟨es, htrace⟩
  refine l.everyCall_iff (watched_trace rfl hadds) ?_ rfl fun e he => nomatch he
  intro f args st _ hst
  exact call_silent_iff hst

/-- **A check is silent exactly when the script that the file holds,
evaluated as a dry run, reaches no `spawn` with its one argument.** -/
theorem dryRun_silent_iff {env : Env D σ} {L : Lemon P} (h : L.Documented) (file : ScriptInput)
    (world : σ) : DryRunIsSilent env L file world ↔ ∀ l, ReadsAs file l →
      l.EveryCall env dryRun (builtins env dryRun) (fun f args _ => ¬ Spawns f args)
        (.fresh [] world) := by
  constructor
  · intro hsilent l hl
    obtain ⟨fuel, res, st, hcheck, htrace⟩ := ParserCheckSyntax_reads env h hl world
    rw [← eval_silent_iff env l world, ← htrace]
    exact hsilent _ _ _ hcheck
  · intro hall fuel res st hcheck
    rcases ParserCheckSyntax_trace h hcheck with hempty | ⟨l, hl, htrace⟩
    · rw [hempty]
      exact fun e he => nomatch he
    · rw [htrace]
      exact (eval_silent_iff env l world).mpr (hall l hl)

/-- The script `$h{k} = 1; xplcmd("a-b.c", "d", "e", \%h);`. -/
def sampleScript : StatementList :=
  .successive (.initial (.assignment ⟨⟨cstr "h", by decide⟩, ⟨cstr "k", by decide⟩⟩
    (.rvalue (.intlit (cstr "1"))) 1))
    (.function .TOK_XPLCMD
      (((ArgumentList.initial (.rvalue (.stringlit false (cstr "a-b.c")))).successive
        (.rvalue (.stringlit false (cstr "d")))).successive
        (.rvalue (.stringlit false (cstr "e"))) |>.successive
        (.hashref ⟨cstr "h", by decide⟩)) 1)

/-- Checking it sends nothing. -/
theorem dryRun_silent_sampleScript :
    DryRunIsSilent Env.inert Lemon.deferred
      (.script (Start.statementlist sampleScript).lexed) () := by
  refine (dryRun_silent_iff Lemon.deferred_documented _ ()).mpr fun l hl => ?_
  obtain ⟨toks, hfile, hyield, -⟩ := hl
  obtain rfl := ScriptInput.script.inj hfile
  have hsame : l.unlined = sampleScript.unlined := StatementList.unlined_of_yield hyield
  rw [l.everyCall_unlined, hsame, ← sampleScript.everyCall_unlined]
  exact ⟨trivial, fun _ hspawns => by cases hspawns.1⟩

/-- The call `spawn("x");`. -/
def sampleSpawn : StatementList :=
  .initial (.function .TOK_SPAWN (.initial (.rvalue (.stringlit false (cstr "x")))) 1)

/-- Checking the file `spawn("x");` starts the process `x`. -/
theorem sampleSpawn_starts :
    ¬ ∀ (file : ScriptInput),
      DryRunIsSilent Env.inert Lemon.deferred file () := by
  intro h
  let toks := (Start.statementlist sampleSpawn).lexed
  have hclean : Clean (names toks) := Clean.of_not_mem (by decide) (by decide)
  obtain ⟨fuel, res, st, hcheck, htrace⟩ := ParserCheckSyntax_reads Env.inert
    Lemon.deferred_documented
    (l := sampleSpawn) ⟨toks, rfl, rfl, hclean⟩ ()
  have hspawned : .spawnProcess (cstr "x") ∈ st.trace :=
    htrace ▸ List.mem_cons_of_mem _ (List.mem_singleton_self _)
  cases h (.script toks) _ _ _ hcheck _ hspawned

end XplEvent.Script
