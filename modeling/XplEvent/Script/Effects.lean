import XplEvent.Script.Exec
import XplEvent.Script.Trigger

/-!
# What a script does outside

An execution leaves the process by four calls: two into the database, one
that starts a process and one that sends a message. `Acts` is a sequence
of them. Whatever code is run, compiled or not, the outside is changed by
such a sequence and by nothing else, and all of it but the readings is in
the trace, in order (`ParserExecPcode_acts`). The hashes that are filled for a message
are no exception (`trigExec_acts`).
-/

namespace XplEvent.Script

section

variable {D σ : Type} (env : Env D σ)

/-- Calls that leave the process: the events they are, and what they make
of the outside. A reading is no event. -/
inductive Acts : List Event → σ → σ → Prop
  | nil {w : σ} : Acts [] w w
  | DBReadNVState {es : List Event} {w w' : σ} (key : CString) :
    Acts es w w' → Acts es w (env.DBReadNVState key w').2
  | DBWriteNVState {es : List Event} {w w' : σ} (key value : CString) :
    Acts es w w' → Acts (es ++ [.dbWrite key value]) w (env.DBWriteNVState key value w').2
  | UtilSpawn {es : List Event} {w w' : σ} (command : CString) :
    Acts es w w' → Acts (es ++ [.spawnProcess command]) w (env.UtilSpawn command w').2
  | XplSendMessage {es : List Event} {w w' : σ} (msg : Wire.XplMessage) :
    Acts es w w' → Acts (es ++ [.broadcast msg]) w (env.XplSendMessage msg w')

variable {env}

theorem Acts.trans {es es' : List Event} {w w' w'' : σ} (h : Acts env es w w')
    (h' : Acts env es' w' w'') : Acts env (es ++ es') w w'' := by
  induction h' with
  | nil => rwa [List.append_nil]
  | DBReadNVState key _ ih => exact (ih h).DBReadNVState key
  | DBWriteNVState key value _ ih =>
    rw [← List.append_assoc]
    exact (ih h).DBWriteNVState key value
  | UtilSpawn command _ ih =>
    rw [← List.append_assoc]
    exact (ih h).UtilSpawn command
  | XplSendMessage msg _ ih =>
    rw [← List.append_assoc]
    exact (ih h).XplSendMessage msg

/-- What the four calls keep, a sequence of them keeps. -/
theorem Acts.keeps (Inv : σ → Prop) (hread : ∀ key w, Inv w → Inv (env.DBReadNVState key w).2)
    (hwrite : ∀ key value w, Inv w → Inv (env.DBWriteNVState key value w).2)
    (hspawn : ∀ command w, Inv w → Inv (env.UtilSpawn command w).2)
    (hsend : ∀ msg w, Inv w → Inv (env.XplSendMessage msg w)) {es : List Event} {w w' : σ}
    (h : Acts env es w w') (hw : Inv w) : Inv w' := by
  induction h with
  | nil => exact hw
  | DBReadNVState key _ ih => exact hread key _ (ih hw)
  | DBWriteNVState key value _ ih => exact hwrite key value _ (ih hw)
  | UtilSpawn command _ ih => exact hspawn command _ (ih hw)
  | XplSendMessage msg _ ih => exact hsend msg _ (ih hw)

/-- The events of a trace that are seen outside. -/
def Store.external (st : Store σ) : List Event := st.trace.filter Event.isExternal

variable (env) in
/-- From `st` to `st'` the outside is acted on as the trace says. -/
def Store.Acts (st st' : Store σ) : Prop :=
  ∃ es, st'.external = st.external ++ es ∧ Script.Acts env es st.world st'.world

theorem Store.Acts.refl (st : Store σ) : st.Acts env st := ⟨[], (List.append_nil _).symm, .nil⟩

theorem Store.Acts.trans {st st' st'' : Store σ} (h : st.Acts env st') (h' : st'.Acts env st'') :
    st.Acts env st'' := by
  obtain ⟨es, htrace, hworld⟩ := h
  obtain ⟨es', htrace', hworld'⟩ := h'
  exact ⟨es ++ es', by rw [htrace', htrace, List.append_assoc], hworld.trans hworld'⟩

/-- Events that stay inside. -/
theorem Store.Acts.inside {st st' : Store σ} (hworld : st'.world = st.world) {es : List Event}
    (htrace : st'.trace = st.trace ++ es) (hes : ∀ e ∈ es, e.isExternal = false) :
    st.Acts env st' := by
  have hnone : es.filter Event.isExternal = [] :=
    List.filter_eq_nil_iff.mpr fun e he => Bool.eq_false_iff.mp (hes e he)
  refine ⟨[], ?_, hworld ▸ .nil⟩
  rw [external, external, htrace, List.filter_append, hnone]

theorem Store.Acts.silent {st st' : Store σ} (hworld : st'.world = st.world)
    (htrace : st'.trace = st.trace) : st.Acts env st' := by
  have hnone : st'.trace = st.trace ++ [] := by rw [htrace, List.append_nil]
  exact .inside hworld hnone fun _ he => absurd he List.not_mem_nil

/-- One event and the call it is. -/
theorem Store.Acts.event {st st' : Store σ} {e : Event} (he : e.isExternal = true)
    (htrace : st'.trace = st.trace ++ [e]) (hworld : Script.Acts env [e] st.world st'.world) :
    st.Acts env st' := by
  refine ⟨[e], ?_, hworld⟩
  have hone : [e].filter Event.isExternal = [e] :=
    List.filter_eq_self.mpr fun e' he' => List.mem_singleton.mp he' ▸ he
  rw [external, external, htrace, List.filter_append, hone]

/-! ## The parts of the interpreter -/

variable {mode : Mode} {st st' : Store σ}

variable (env mode) in
theorem ParserHashGetValue_acts (st : Store σ) (hashName key : CString) :
    st.Acts env (ParserHashGetValue env mode st hashName key).2 := by
  rw [ParserHashGetValue]
  split
  · exact ⟨[], (List.append_nil _).symm, .DBReadNVState key .nil⟩
  · exact .refl st

variable (env mode) in
theorem ParserHashAddKeyValue_acts (st : Store σ) (hashName key value : CString) :
    st.Acts env (ParserHashAddKeyValue env mode st hashName key value).2 := by
  rw [ParserHashAddKeyValue]
  split
  · exact .event rfl rfl (.DBWriteNVState key value .nil)
  · refine .inside rfl rfl fun e he => ?_
    rw [List.mem_singleton.mp he]
    rfl

theorem undefVar_acts {var : Option CString} {lineNo : Int}
    (h : undefVar mode st var lineNo = .ok st') : st.Acts env st' := by
  unfold undefVar at h
  split at h
  · cases h
  · cases h
    cases mode.ignoreAssignErrors
    · exact .silent rfl rfl
    · exact .refl _

theorem ParserPcodeGetValue_acts {instr : Pcode} {value : Option CString}
    (h : ParserPcodeGetValue env mode st instr = .ok (value, st')) : st.Acts env st' := by
  unfold ParserPcodeGetValue at h
  split at h
  · cases h
    exact .refl _
  · cases h
    exact .refl _
  · cases h
    exact .refl _
  · cases h
    exact .refl _
  · split at h
    · rename_i hashName key _ _
      have hget := ParserHashGetValue_acts env mode st hashName key
      rwa [Except.ok.inj h] at hget
    · cases h
  · cases h

theorem ParserPcodePutValue_acts {instr : Pcode} {value : CString} {res : PassFail}
    (h : ParserPcodePutValue env mode st instr value = .ok (res, st')) : st.Acts env st' := by
  unfold ParserPcodePutValue at h
  split at h
  · split at h
    · rename_i hashName key _ _
      have hadd := ParserHashAddKeyValue_acts env mode st hashName key value
      rwa [Except.ok.inj h] at hadd
    · cases h
  · cases h
    exact .refl _

theorem execTest2_acts {left right : Pcode} {op : Testop} {lineNo : Int} {skips : Bool}
    (h : execTest2 env mode st left right op lineNo = .ok (skips, st')) : st.Acts env st' := by
  obtain ⟨⟨_ | value, st₁⟩, hleft, h⟩ := bind_ok h
  · obtain ⟨st₂, hundef, h⟩ := bind_ok h
    cases h
    exact (ParserPcodeGetValue_acts hleft).trans (undefVar_acts hundef)
  have hleft := ParserPcodeGetValue_acts hleft
  dsimp only at h
  split at h
  · cases h
    exact hleft.trans (.silent rfl rfl)
  obtain ⟨⟨_ | rvalue, st₂⟩, hright, h⟩ := bind_ok h
  · obtain ⟨st₃, hundef, h⟩ := bind_ok h
    cases h
    exact (hleft.trans (ParserPcodeGetValue_acts hright)).trans (undefVar_acts hundef)
  have hboth := hleft.trans (ParserPcodeGetValue_acts hright)
  dsimp only at h
  split at h
  · cases h
    exact hboth.trans (.silent rfl rfl)
  · cases h
    exact hboth

theorem demandValue_acts {instr : Except Fault Pcode} {value : CString}
    (h : demandValue env mode instr st = .ok (value, st')) : st.Acts env st' := by
  obtain ⟨p, -, h⟩ := bind_ok h
  obtain ⟨⟨_ | value, st₁⟩, hget, h⟩ := bind_ok h
  · cases h
  · cases h
    exact ParserPcodeGetValue_acts hget

theorem sendCommand_acts {tag class_ type_ hash : CString}
    (h : sendCommand env mode st tag class_ type_ hash = .ok st') : st.Acts env st' := by
  unfold sendCommand at h
  split at h
  · cases h
    exact .silent rfl rfl
  split at h
  · cases h
  cases h
  cases mode.xplServicePtr with
  | none => exact .silent rfl rfl
  | some xs => exact .event rfl rfl (.XplSendMessage _ .nil)

/-- A function of the interpreter acts outside as its trace says. -/
def ActsOutside (env : Env D σ) (func : Func σ) : Prop :=
  ∀ code i (ex ex' : ExecState σ), func code i ex = .ok ex' → ex.store.Acts env ex'.store

theorem spawn_acts : ActsOutside env (spawn env mode) := by
  intro code pi ex ex' h
  unfold spawn at h
  split at h
  · cases h
    exact .silent rfl rfl
  obtain ⟨⟨command, st⟩, hdemand, h⟩ := bind_ok h
  refine (demandValue_acts hdemand).trans ?_
  have hspawned : st.Acts env { st with
      world := (env.UtilSpawn command st.world).2
      trace := st.trace ++ [.spawnProcess command] } :=
    .event rfl rfl (.UtilSpawn command .nil)
  dsimp only at h
  split at h
  · cases h
    exact hspawned
  · cases h
    exact hspawned.trans (.silent rfl rfl)

theorem sendXPLCommand_acts : ActsOutside env (sendXPLCommand env mode) := by
  intro code pi ex ex' h
  unfold sendXPLCommand at h
  split at h
  · cases h
    exact .silent rfl rfl
  obtain ⟨⟨hash, st₁⟩, hhash, h⟩ := bind_ok h
  obtain ⟨⟨type_, st₂⟩, htype, h⟩ := bind_ok h
  obtain ⟨⟨class_, st₃⟩, hclass, h⟩ := bind_ok h
  obtain ⟨⟨tag, st₄⟩, htag, h⟩ := bind_ok h
  obtain ⟨st₅, hsend, h⟩ := bind_ok h
  cases h
  exact ((((demandValue_acts hhash).trans (demandValue_acts htype)).trans
    (demandValue_acts hclass)).trans (demandValue_acts htag)).trans (sendCommand_acts hsend)

theorem ParserExecFunction_acts : ActsOutside env (ParserExecFunction env mode) := by
  intro code pi ex ex' h
  unfold ParserExecFunction at h
  obtain ⟨p, -, h⟩ := bind_ok h
  split at h
  · exact sendXPLCommand_acts code pi ex ex' h
  · exact spawn_acts code pi ex ex' h
  · cases h

/-! ## A run -/

/-- An instruction acts outside as the trace says. -/
theorem execInstr_acts {func : Func σ} (hfunc : ActsOutside env func) {code : List Pcode}
    {i j : Nat} {pe : Pcode} {ex ex' : ExecState σ}
    (h : execInstr env mode func code i pe ex = .ok (j, ex')) : ex.store.Acts env ex'.store := by
  rw [execInstr] at h
  cases hop : pe.opcode with
  | OP_NOP =>
    rw [hop] at h
    cases h
    exact .refl _
  | OP_PUSH =>
    rw [hop] at h
    cases h
    split
    · exact .refl _
    · exact .refl _
  | OP_BLOCK =>
    rw [hop] at h
    dsimp only at h
    split at h
    · cases h
      exact .refl _
    · cases h
      exact .refl _
  | OP_ASSIGN =>
    rw [hop] at h
    obtain ⟨_, -, h⟩ := bind_ok h
    obtain ⟨right, -, h⟩ := bind_ok h
    obtain ⟨⟨_ | value, st⟩, hget, h⟩ := bind_ok h
    · obtain ⟨st', hundef, h⟩ := bind_ok h
      cases h
      exact (ParserPcodeGetValue_acts hget).trans (undefVar_acts hundef)
    obtain ⟨left, -, h⟩ := bind_ok h
    obtain ⟨⟨_ | _, st'⟩, hput, h⟩ := bind_ok h
    · cases h
      exact (ParserPcodeGetValue_acts hget).trans (ParserPcodePutValue_acts hput)
    · obtain ⟨st'', hundef, h⟩ := bind_ok h
      cases h
      exact ((ParserPcodeGetValue_acts hget).trans (ParserPcodePutValue_acts hput)).trans
        (undefVar_acts hundef)
  | OP_TEST2 =>
    rw [hop] at h
    obtain ⟨_, -, h⟩ := bind_ok h
    dsimp only at h
    split at h
    · obtain ⟨left, -, h⟩ := bind_ok h
      obtain ⟨right, -, h⟩ := bind_ok h
      obtain ⟨⟨_ | _, st⟩, htest, h⟩ := bind_ok h
      · cases h
        exact execTest2_acts htest
      · obtain ⟨-, hex⟩ := skip_ok h
        rw [hex]
        exact execTest2_acts htest
    · cases h
  | OP_EXISTS =>
    rw [hop] at h
    obtain ⟨_, -, h⟩ := bind_ok h
    obtain ⟨key, -, h⟩ := bind_ok h
    obtain ⟨⟨_ | value, st⟩, hget, h⟩ := bind_ok h
    · obtain ⟨-, hex⟩ := skip_ok h
      rw [hex]
      exact ParserPcodeGetValue_acts hget
    · cases h
      exact ParserPcodeGetValue_acts hget
  | OP_FUNC =>
    rw [hop] at h
    dsimp only at h
    split at h
    · rename_i f _
      obtain ⟨ex₁, hcall, h⟩ := bind_ok h
      cases h
      have hnoted : ex.store.Acts env { ex.store with
          trace := ex.store.trace ++ [.builtinCall f (pushedArgs code i ex.pushCount)] } := by
        refine .inside rfl rfl fun e he => ?_
        rw [List.mem_singleton.mp he]
        rfl
      exact hnoted.trans (hfunc _ _ _ _ hcall)
    · cases h
  | OP_IF =>
    rw [hop] at h
    cases h

theorem resetPush_store (pe : Pcode) (ex : ExecState σ) : (resetPush pe ex).store = ex.store := by
  rw [resetPush]
  split
  · rfl
  · rfl

/-- **Whatever code is run, the outside is acted on by the four calls
alone**, and as the trace says. -/
theorem exec_acts {func : Func σ} (hfunc : ActsOutside env func) {code : List Pcode} {fuel : Nat}
    {res : PassFail} (h : ParserExecPcode env mode func code fuel st = some (res, st')) :
    st.Acts env st' := by
  rw [ParserExecPcode] at h
  split at h
  · cases h
    exact .silent rfl rfl
  obtain ⟨ex, hloop, hex⟩ := Option.map_eq_some_iff.mp h
  cases hex
  refine Lib.loop_relates (Q := fun s ex => s.2.store.Acts env ex.store) ?_ ?_ hloop
  · rintro ⟨i, ex⟩ r hdone
    rw [execTurn] at hdone
    split at hdone
    · cases hdone
      exact .refl _
    split at hdone
    · cases hdone
      exact .refl _
    split at hdone
    · cases hdone
      exact .silent rfl rfl
    · cases hdone
  · rintro ⟨i, ex⟩ s r hagain hrest
    obtain ⟨pe, j, ex', -, hexec, rfl⟩ := execTurn_again hagain
    have hinstr := execInstr_acts hfunc hexec
    rw [resetPush_store] at hinstr
    exact hinstr.trans hrest

/-! ## A script on a message -/

theorem nameValues_acts {nvs : List Wire.XplNameValueLE}
    (h : XplMessageIterateNameValues (parseAndExecTrigCallback env mode) nvs st = .ok st') :
    st.Acts env st' := by
  induction nvs generalizing st with
  | nil =>
    cases h
    exact .refl _
  | cons xnv rest ih =>
    obtain ⟨_, -, h⟩ := bind_ok h
    obtain ⟨st₁, hcall, hrest⟩ := bind_ok h
    unfold parseAndExecTrigCallback at hcall
    cases hvalue : xnv.itemValue with
    | none =>
      rw [hvalue] at hcall
      cases hcall
    | some value =>
      rw [hvalue] at hcall
      cases hcall
      exact (ParserHashAddKeyValue_acts _ _ _ _ _ _).trans (ih hrest)

theorem trigSetUp_acts {xm : Wire.XplMessage} (h : trigSetUp env mode xm st = .ok st') :
    st.Acts env st' := by
  obtain ⟨st₁, hvalues, h⟩ := bind_ok h
  obtain ⟨_, -, h⟩ := bind_ok h
  obtain ⟨schema, -, h⟩ := bind_ok h
  obtain ⟨source, -, h⟩ := bind_ok h
  cases h
  exact ((nameValues_acts hvalues).trans (ParserHashAddKeyValue_acts _ _ _ _ _ _)).trans
    (ParserHashAddKeyValue_acts _ _ _ _ _ _)

/-- A script on a message acts outside as its trace says, from the hashes
on. -/
theorem trigExec_acts {P : Type} {L : Lemon P} {xm : Wire.XplMessage} {script : ScriptInput}
    {fuel : Nat} {world : σ} {res : PassFail}
    (h : trigExec env mode L xm script fuel world = some (.ok (res, st'))) :
    (Store.fresh [] world).Acts env st' := by
  unfold trigExec parseAndExecTrig at h
  rcases hset : trigSetUp env mode xm (.fresh [] world) with f | st₁
  · rw [hset] at h
    cases h
  rw [hset] at h
  have hfilled := trigSetUp_acts hset
  rcases hparse : ParserParseHCL L script .zero with f | ⟨_ | _, pc⟩
  · simp only [hparse] at h
    cases h
  · simp only [hparse] at h
    obtain ⟨⟨res', st₂⟩, hexec, hst⟩ := Option.map_eq_some_iff.mp h
    cases hfault : st₂.fault with
    | some f =>
      simp only [hfault] at hst
      cases hst
    | none =>
      simp only [hfault] at hst
      cases hst
      exact hfilled.trans (exec_acts ParserExecFunction_acts hexec)
  · simp only [hparse] at h
    cases h
    exact hfilled

/-- **What a script does outside is what its trace says**, whatever code it
is, however far it gets, and whether or not it fails. -/
theorem ParserExecPcode_acts {code : List Pcode} {fuel : Nat} {res : PassFail}
    (h : ParserExecPcode env mode (ParserExecFunction env mode) code fuel st = some (res, st')) :
    ∃ es, st'.trace.filter Event.isExternal = st.trace.filter Event.isExternal ++ es ∧
      Acts env es st.world st'.world := exec_acts ParserExecFunction_acts h

end

/-- The call `spawn("x");`. -/
def spawnCall : StatementList :=
  .initial (.function .TOK_SPAWN (.initial (.rvalue (.stringlit false (cstr "x")))) 1)

theorem ParserExecPcode_acts_spawn : ∃ es,
    [.spawnProcess (cstr "x")] = es ∧ Acts Env.inert es () () := by
  have hrun : ParserExecPcode Env.inert ⟨false, none, true⟩
      (ParserExecFunction Env.inert ⟨false, none, true⟩) (spawnCall.layout 0 0) 4
      (.fresh [] ()) = some (.PASS, _) := rfl
  obtain ⟨es, hes, hacts⟩ := ParserExecPcode_acts hrun
  exact ⟨es, hes, hacts⟩

end XplEvent.Script
