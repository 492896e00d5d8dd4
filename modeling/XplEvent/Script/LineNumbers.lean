import XplEvent.Script.Grammar
import XplEvent.Script.Layout

/-!
# Line numbers

A line number is only ever part of a fail reason. Neither the structural
evaluation (`StatementList.eval_unlined`) nor the interpreter
(`ParserExecPcode_unlined`) does anything else with it, so two trees, or
two codes, that differ in their lines do the same until one of them fails,
and then both have failed.
-/

namespace XplEvent.Script

/-! ## Stores without lines -/

/-- A fail reason with its line forgotten. -/
def FailReason.unlined : FailReason → FailReason
  | .syntaxError _ => .syntaxError 0
  | .undefVar var _ => .undefVar var 0
  | .invalidNumeric _ => .invalidNumeric 0
  | reason => reason

section

variable {D σ : Type} {env : Env D σ} {mode : Mode} {builtin : Builtin σ}

def Store.unlined (st : Store σ) : Store σ :=
  { st with failReason := st.failReason.map FailReason.unlined }

theorem Store.stopped_unlined (st : Store σ) : st.unlined.stopped = st.stopped := by
  simp only [stopped, unlined, Option.isSome_map]

section

variable {st st' : Store σ}

theorem Store.trace_of_unlined (h : st.unlined = st'.unlined) : st.trace = st'.trace :=
  show st.unlined.trace = st'.unlined.trace by rw [h]

theorem Store.fault_of_unlined (h : st.unlined = st'.unlined) : st.fault = st'.fault :=
  show st.unlined.fault = st'.unlined.fault by rw [h]

theorem Store.world_of_unlined (h : st.unlined = st'.unlined) : st.world = st'.world :=
  show st.unlined.world = st'.unlined.world by rw [h]

theorem Store.failed_of_unlined (h : st.unlined = st'.unlined) :
    st.failReason.isSome = st'.failReason.isSome := by
  have hmap := congrArg (fun st : Store σ => st.failReason.isSome) h
  simpa only [unlined, Option.isSome_map] using hmap

theorem Store.passed_of_unlined (h : st.unlined = st'.unlined) :
    st.failReason = none ↔ st'.failReason = none := by
  rw [← Option.isNone_iff_eq_none, ← Option.isNone_iff_eq_none, ← Option.not_isSome,
    ← Option.not_isSome, failed_of_unlined h]

end

/-- A store in which something can still run has no line to forget. -/
theorem Store.eq_of_unlined {st st' : Store σ} (h : st.unlined = st'.unlined)
    (hrun : st.stopped = false) : st' = st := by
  have hrun' : st'.stopped = false := by rw [← st'.stopped_unlined, ← h, st.stopped_unlined, hrun]
  have hnone : ∀ st : Store σ, st.stopped = false → st.unlined = st := by
    rintro ⟨steHead, failReason, fault, world, trace⟩ hrun
    cases failReason with
    | none => rfl
    | some reason => cases hrun
  rw [← hnone st hrun, ← hnone st' hrun', h]

/-- Going on in one of two stores that differ in a line at most. -/
theorem Store.unlined_next {st st' : Store σ} (h : st.unlined = st'.unlined)
    {f g : Store σ → Store σ} (hfg : (f st).unlined = (g st).unlined) :
    (if st.stopped then st else f st).unlined = (if st'.stopped then st' else g st').unlined := by
  have hstop : st'.stopped = st.stopped := by
    rw [← st'.stopped_unlined, ← h, st.stopped_unlined]
  cases hrun : st.stopped with
  | true => rw [hstop, hrun, if_pos rfl, if_pos rfl, h]
  | false =>
    obtain rfl := eq_of_unlined h hrun
    rw [hrun, if_neg Bool.false_ne_true, if_neg Bool.false_ne_true, hfg]

theorem Store.unlined_undefined (st : Store σ) (var : CString) (n : Int) :
    (st.undefined mode var n).unlined = (st.undefined mode var 0).unlined := by
  rw [undefined, undefined]
  cases mode.ignoreAssignErrors <;> rfl

variable (env mode) in
theorem Test.eval_unlined (t : Test) (st : Store σ) :
    (t.eval env mode st).1 = (t.unlined.eval env mode st).1 ∧
      (t.eval env mode st).2.unlined = (t.unlined.eval env mode st).2.unlined := by
  cases t with
  | exists_ h n => exact ⟨rfl, rfl⟩
  | compare l op r n =>
    simp only [Test.unlined, Test.eval]
    rcases l.eval env mode st with ⟨_ | value, st₁⟩
    · exact ⟨rfl, st₁.unlined_undefined l.name n⟩
    dsimp only
    split
    · exact ⟨rfl, rfl⟩
    rcases r.eval env mode st₁ with ⟨_ | rvalue, st₂⟩
    · exact ⟨rfl, st₂.unlined_undefined r.name n⟩
    dsimp only
    split
    · exact ⟨rfl, rfl⟩
    · exact ⟨rfl, rfl⟩

theorem assign_unlined (lhs : Hash) (rhs : Operand) (n : Int) (st : Store σ) :
    (assign env mode lhs rhs n st).unlined = (assign env mode lhs rhs 0 st).unlined := by
  simp only [assign]
  rcases rhs.eval env mode st with ⟨_ | value, st₁⟩
  · exact st₁.unlined_undefined rhs.name n
  dsimp only
  rcases ParserHashAddKeyValue env mode st₁ lhs.scalar.text lhs.key.text value with ⟨_ | _, st₂⟩
  · rfl
  · exact st₂.unlined_undefined lhs.scalar.text n

mutual

theorem Statement.eval_unlined (s : Statement) (st : Store σ) :
    (s.eval env mode builtin st).unlined = (s.unlined.eval env mode builtin st).unlined := by
  cases s with
  | function f args n => rfl
  | assignment lhs rhs n => exact assign_unlined lhs rhs n st
  | ifconst t block n =>
    have htest := t.eval_unlined env mode st
    simp only [Statement.unlined, Statement.eval]
    generalize t.eval env mode st = r at htest ⊢
    generalize t.unlined.eval env mode st = r' at htest ⊢
    obtain ⟨enter, st₁⟩ := r
    obtain ⟨enter', st₂⟩ := r'
    obtain ⟨rfl, hst⟩ := htest
    cases enter with
    | false =>
      rw [Bool.and_false, Bool.and_false]
      exact hst
    | true =>
      have hnext := Store.unlined_next hst (f := block.eval env mode builtin)
        (g := block.unlined.eval env mode builtin) (block.eval_unlined st₁)
      have hite : ∀ st st' : Store σ,
          (if !st.stopped then st' else st) = if st.stopped then st else st' := by
        intro st st'
        cases st.stopped <;> rfl
      rw [Bool.and_true, Bool.and_true, hite, hite]
      exact hnext
  | ifelseconst t block elseblock n =>
    have htest := t.eval_unlined env mode st
    simp only [Statement.unlined, Statement.eval]
    generalize t.eval env mode st = r at htest ⊢
    generalize t.unlined.eval env mode st = r' at htest ⊢
    obtain ⟨enter, st₁⟩ := r
    obtain ⟨enter', st₂⟩ := r'
    obtain ⟨rfl, hst⟩ := htest
    refine Store.unlined_next hst (f := fun st => if enter then block.eval env mode builtin st
      else elseblock.eval env mode builtin st) (g := fun st => if enter then
        block.unlined.eval env mode builtin st else elseblock.unlined.eval env mode builtin st) ?_
    cases enter with
    | true => exact block.eval_unlined st₁
    | false => exact elseblock.eval_unlined st₁
termination_by structural s

/-- **A line number is only ever part of a fail reason.** -/
theorem StatementList.eval_unlined (l : StatementList) (st : Store σ) :
    (l.eval env mode builtin st).unlined = (l.unlined.eval env mode builtin st).unlined := by
  cases l with
  | initial s => exact s.eval_unlined st
  | successive l s =>
    simp only [StatementList.unlined, StatementList.eval]
    exact Store.unlined_next (l.eval_unlined st) (s.eval_unlined _)
termination_by structural l

end

/-! ## Calls without lines -/

section

variable {P : BuiltinFunction → List Arg → Store σ → Prop}

/-- Two tests that differ in a line let the same go on. -/
theorem Store.unlined_reached {st st' : Store σ} (h : st.unlined = st'.unlined)
    {p q : Store σ → Prop} (hpq : st.stopped = false → (p st ↔ q st)) :
    (st.stopped = false → p st) ↔ (st'.stopped = false → q st') := by
  have hstop : st'.stopped = st.stopped := by
    rw [← st'.stopped_unlined, ← h, st.stopped_unlined]
  cases hrun : st.stopped with
  | true =>
    rw [hstop, hrun]
    exact iff_of_true (fun hfalse => by cases hfalse) fun hfalse => by cases hfalse
  | false =>
    obtain rfl := eq_of_unlined h hrun
    rw [hrun]
    exact imp_congr_right fun _ => hpq hrun

mutual

theorem Statement.everyCall_unlined (s : Statement) (st : Store σ) :
    s.EveryCall env mode builtin P st ↔ s.unlined.EveryCall env mode builtin P st := by
  cases s with
  | function f args n => exact Iff.rfl
  | assignment lhs rhs n => exact Iff.rfl
  | ifconst t block n =>
    have htest := t.eval_unlined env mode st
    simp only [Statement.unlined, Statement.EveryCall]
    generalize t.eval env mode st = r at htest ⊢
    generalize t.unlined.eval env mode st = r' at htest ⊢
    obtain ⟨enter, st₁⟩ := r
    obtain ⟨enter', st₂⟩ := r'
    obtain ⟨rfl, hst⟩ := htest
    exact Store.unlined_reached hst (p := fun st => enter = true → block.EveryCall env mode builtin P st)
      (q := fun st => enter = true → block.unlined.EveryCall env mode builtin P st)
      fun _ => imp_congr_right fun _ => block.everyCall_unlined st₁
  | ifelseconst t block elseblock n =>
    have htest := t.eval_unlined env mode st
    simp only [Statement.unlined, Statement.EveryCall]
    generalize t.eval env mode st = r at htest ⊢
    generalize t.unlined.eval env mode st = r' at htest ⊢
    obtain ⟨enter, st₁⟩ := r
    obtain ⟨enter', st₂⟩ := r'
    obtain ⟨rfl, hst⟩ := htest
    refine Store.unlined_reached hst (p := fun st => if enter then
      block.EveryCall env mode builtin P st else elseblock.EveryCall env mode builtin P st)
      (q := fun st => if enter then block.unlined.EveryCall env mode builtin P st
        else elseblock.unlined.EveryCall env mode builtin P st) fun _ => ?_
    cases enter with
    | true => exact block.everyCall_unlined st₁
    | false => exact elseblock.everyCall_unlined st₁
termination_by structural s

/-- The calls that are reached do not depend on the lines. -/
theorem StatementList.everyCall_unlined (l : StatementList) (st : Store σ) :
    l.EveryCall env mode builtin P st ↔ l.unlined.EveryCall env mode builtin P st := by
  cases l with
  | initial s => exact s.everyCall_unlined st
  | successive l s =>
    simp only [StatementList.unlined, StatementList.EveryCall]
    exact and_congr (l.everyCall_unlined st)
      (Store.unlined_reached (l.eval_unlined st) fun _ => s.everyCall_unlined _)
termination_by structural l

end

end

/-! ## Code without lines -/

def ExecState.unlined (ex : ExecState σ) : ExecState σ := { ex with store := ex.store.unlined }

theorem getElem?_unlined (code : List Pcode) (i : Nat) :
    (code.map Pcode.unlined)[i]? = code[i]?.map Pcode.unlined := List.getElem?_map

theorem prev_unlined (code : List Pcode) (i n : Nat) :
    prev (code.map Pcode.unlined) i n = (prev code i n).map Pcode.unlined := by
  unfold prev
  split
  · rw [getElem?_unlined]
    cases code[i - n]? <;> rfl
  · rfl

theorem pushedArgs_unlined (code : List Pcode) (pi pushCount : Nat) :
    pushedArgs (code.map Pcode.unlined) pi pushCount = pushedArgs code pi pushCount := by
  rw [pushedArgs, pushedArgs, ← List.map_drop, ← List.map_take, List.map_map]
  rfl

theorem ParserPcodeGetValue_unlined (st : Store σ) (p : Pcode) :
    ParserPcodeGetValue env mode st p.unlined = ParserPcodeGetValue env mode st p := rfl

theorem ParserPcodePutValue_unlined (st : Store σ) (p : Pcode) (value : CString) :
    ParserPcodePutValue env mode st p.unlined value = ParserPcodePutValue env mode st p value := rfl

theorem demandValue_unlined (p : Except Fault Pcode) (st : Store σ) :
    demandValue env mode (p.map Pcode.unlined) st = demandValue env mode p st := by
  cases p <;> rfl

/-- A built-in function does not look at lines. -/
theorem ParserExecFunction_unlined (code : List Pcode) (pi : Nat) (ex : ExecState σ) :
    ParserExecFunction env mode (code.map Pcode.unlined) pi ex =
      ParserExecFunction env mode code pi ex := by
  have hspawn : spawn env mode (code.map Pcode.unlined) pi ex = spawn env mode code pi ex := by
    simp only [spawn, prev_unlined, demandValue_unlined]
  have hsend : sendXPLCommand env mode (code.map Pcode.unlined) pi ex =
      sendXPLCommand env mode code pi ex := by
    simp only [sendXPLCommand, prev_unlined, demandValue_unlined]
  simp only [ParserExecFunction, getElem?_unlined, hspawn, hsend]
  cases code[pi]? <;> rfl

/-- What an instruction comes to, but for lines. -/
def outcome (r : Except Fault (Nat × ExecState σ)) : Except Fault (Nat × ExecState σ) :=
  r.map fun next => (next.1, next.2.unlined)

variable (env mode) in
theorem execTest2_unlined (st : Store σ) (left right : Pcode) (op : Testop) (n : Int) :
    (execTest2 env mode st left.unlined right.unlined op 0).map (fun r => (r.1, r.2.unlined)) =
      (execTest2 env mode st left right op n).map fun r => (r.1, r.2.unlined) := by
  have hundef : ∀ (st : Store σ) (var : Option CString),
      (undefVar mode st var 0 >>= fun st => .ok (false, st)).map (fun r => (r.1, r.2.unlined)) =
        (undefVar mode st var n >>= fun st => .ok (false, st)).map
          fun r => (r.1, r.2.unlined) := by
    rintro st (_ | var)
    · rfl
    · exact congrArg (fun store => Except.ok (false, store)) (st.unlined_undefined var n).symm
  simp only [execTest2, ParserPcodeGetValue_unlined]
  rcases ParserPcodeGetValue env mode st left with f | ⟨_ | value, st₁⟩
  · rfl
  · exact hundef st₁ left.data1
  simp only [ok_bind]
  cases op.rejects env value with
  | true => rfl
  | false =>
    rcases ParserPcodeGetValue env mode st₁ right with f | ⟨_ | rvalue, st₂⟩
    · rfl
    · exact hundef st₂ right.data1
    · cases hreject : op.rejects env rvalue <;> simp only [ok_bind, hreject] <;> rfl

variable (env mode) in
/-- A line of an instruction is only ever part of a fail reason. -/
theorem execInstr_unlined {func : Func σ}
    (hfunc : ∀ code pi ex, func (code.map Pcode.unlined) pi ex = func code pi ex) (code : List Pcode)
    (i : Nat) (pe : Pcode) (ex : ExecState σ) :
    outcome (execInstr env mode func (code.map Pcode.unlined) i pe.unlined ex) =
      outcome (execInstr env mode func code i pe ex) := by
  have hundef : ∀ (st : Store σ) (var : Option CString) (n : Int),
      outcome (undefVar mode st var n >>= fun st => .ok (i, { ex with store := st })) =
        outcome (undefVar mode st var 0 >>= fun st => .ok (i, { ex with store := st })) := by
    rintro st (_ | var) n
    · rfl
    · have hstore : (st.undefined mode var n).unlined = (st.undefined mode var 0).unlined :=
        st.unlined_undefined var n
      simp only [undefVar, outcome, ok_bind, Except.map, ExecState.unlined]
      exact congrArg (fun store => Except.ok (i, { ex with store := store })) hstore
  rcases pe with ⟨opcode, operand, lineNo, seq, count, data1, data2, skip⟩
  cases opcode with
  | OP_NOP | OP_PUSH | OP_BLOCK | OP_IF => rfl
  | OP_ASSIGN =>
    simp only [execInstr, Pcode.unlined, prev_unlined]
    cases decide (ex.pushCount = 2) with
    | false => rfl
    | true =>
      rcases prev code i 1 with f | right
      · rfl
      simp only [ASSERT_FAIL_true, Except.map, ok_bind, ParserPcodeGetValue_unlined]
      rcases ParserPcodeGetValue env mode ex.store right with f | ⟨_ | value, st⟩
      · rfl
      · exact (hundef st right.data1 lineNo).symm
      rcases prev code i 2 with f | left
      · rfl
      simp only [ok_bind, ParserPcodePutValue_unlined]
      rcases ParserPcodePutValue env mode st left value with f | ⟨_ | _, st'⟩
      · rfl
      · rfl
      · exact (hundef st' left.data1 lineNo).symm
  | OP_TEST2 =>
    simp only [execInstr, Pcode.unlined, prev_unlined]
    cases decide (ex.pushCount = 2) with
    | false => rfl
    | true =>
      cases operand with
      | test op =>
        rcases prev code i 2 with f | left
        · rfl
        rcases prev code i 1 with f | right
        · rfl
        have htest := execTest2_unlined env mode ex.store left right op lineNo
        simp only [ASSERT_FAIL_true, Except.map, ok_bind]
        generalize execTest2 env mode ex.store left.unlined right.unlined op 0 = r at htest ⊢
        generalize execTest2 env mode ex.store left right op lineNo = r' at htest ⊢
        rcases r with f | ⟨skips, st⟩
        · rcases r' with f' | ⟨skips', st'⟩
          · cases htest
            rfl
          · cases htest
        · rcases r' with f' | ⟨skips', st'⟩
          · cases htest
          · obtain ⟨rfl, hst⟩ := Prod.mk.inj (Except.ok.inj htest)
            simp only [ok_bind]
            cases skips with
            | false => exact congrArg (fun store => Except.ok (i, { ex with store := store })) hst
            | true =>
              cases skip with
              | none => rfl
              | some j => exact congrArg (fun store => Except.ok (j, { ex with store := store })) hst
      | _ => rfl
  | OP_EXISTS =>
    simp only [execInstr, Pcode.unlined, prev_unlined]
    rcases prev code i 1 with f | key <;> rfl
  | OP_FUNC =>
    simp only [execInstr, Pcode.unlined, pushedArgs_unlined, hfunc]

variable (env mode) in
/-- One turn of the loop in states that differ in a line at most. -/
theorem execTurn_unlined {func : Func σ}
    (hfunc : ∀ code pi ex, func (code.map Pcode.unlined) pi ex = func code pi ex) (code : List Pcode)
    (s s' : Nat × ExecState σ) (h : s.1 = s'.1 ∧ s.2.unlined = s'.2.unlined) :
    (execTurn env mode func (code.map Pcode.unlined) s).Related
      (fun s s' => s.1 = s'.1 ∧ s.2.unlined = s'.2.unlined) (fun ex ex' => ex.unlined = ex'.unlined)
      (execTurn env mode func code s') := by
  obtain ⟨i, ex⟩ := s
  obtain ⟨i', ex'⟩ := s'
  obtain ⟨rfl, hex⟩ := h
  have hstore : ex.store.unlined = ex'.store.unlined := congrArg ExecState.store hex
  have hstop : ex'.store.stopped = ex.store.stopped := by
    rw [← ex'.store.stopped_unlined, ← hstore, ex.store.stopped_unlined]
  cases hrun : ex.store.stopped with
  | true =>
    rw [execTurn, execTurn, hstop, hrun]
    exact .done hex
  | false =>
    have hsame : ex' = ex := by
      have hkept := Store.eq_of_unlined hstore hrun
      obtain ⟨store, firstPush, pushCount⟩ := ex
      obtain ⟨store', firstPush', pushCount'⟩ := ex'
      obtain ⟨-, rfl, rfl⟩ := ExecState.mk.inj hex
      exact congrArg (ExecState.mk · firstPush pushCount) hkept
    subst hsame
    simp only [execTurn, hrun, Bool.false_eq_true, if_false, getElem?_unlined]
    cases code[i]? with
    | none => exact .done rfl
    | some pe =>
      have hexec := execInstr_unlined env mode hfunc code i pe (resetPush pe ex')
      have hreset : resetPush pe.unlined ex' = resetPush pe ex' := rfl
      simp only [Option.map_some, hreset]
      generalize execInstr env mode func (code.map Pcode.unlined) i pe.unlined _ = r at hexec ⊢
      generalize execInstr env mode func code i pe _ = r' at hexec ⊢
      rcases r with f | ⟨j, ex₁⟩
      · rcases r' with f' | ⟨j', ex₂⟩
        · cases hexec
          exact .done rfl
        · cases hexec
      · rcases r' with f' | ⟨j', ex₂⟩
        · cases hexec
        · obtain ⟨rfl, hnext⟩ := Prod.mk.inj (Except.ok.inj hexec)
          exact .again ⟨rfl, hnext⟩

/-- A run with the line in its fail reason forgotten. -/
def resultUnlined (r : PassFail × Store σ) : PassFail × Store σ := (r.1, r.2.unlined)

/-- **The interpreter does the same with any lines in the code**, up to the
line in a fail reason. -/
theorem ParserExecPcode_unlined {func : Func σ}
    (hfunc : ∀ code pi ex, func (code.map Pcode.unlined) pi ex = func code pi ex) (code : List Pcode)
    (fuel : Nat) (st : Store σ) :
    (ParserExecPcode env mode func (code.map Pcode.unlined) fuel st).map resultUnlined =
      (ParserExecPcode env mode func code fuel st).map resultUnlined := by
  unfold ParserExecPcode
  rw [List.isEmpty_map]
  cases code.isEmpty with
  | true => rfl
  | false =>
    have hloop := Lib.loop_related (execTurn_unlined env mode hfunc code) fuel
      (s := (0, ⟨st, none, 0⟩)) ⟨rfl, rfl⟩
    simp only [Bool.false_eq_true, if_false]
    generalize Lib.loop (execTurn env mode func (code.map Pcode.unlined)) fuel _ = r at hloop ⊢
    generalize Lib.loop (execTurn env mode func code) fuel _ = r' at hloop ⊢
    cases hloop with
    | none => rfl
    | @some ex ex' hex =>
      have hstore : ex.store.unlined = ex'.store.unlined := congrArg ExecState.store hex
      simp only [Option.map_some, resultUnlined, Store.failed_of_unlined hstore, hstore]

/-- Codes that differ in lines have results that differ in a line. -/
theorem ParserExecPcode_lines {code code' : List Pcode}
    (h : code.map Pcode.unlined = code'.map Pcode.unlined) (fuel : Nat) (st : Store σ) :
    (ParserExecPcode env mode (ParserExecFunction env mode) code fuel st).map resultUnlined =
      (ParserExecPcode env mode (ParserExecFunction env mode) code' fuel st).map resultUnlined := by
  rw [← ParserExecPcode_unlined ParserExecFunction_unlined code,
    ← ParserExecPcode_unlined ParserExecFunction_unlined code', h]

end

/-! ## Sizes -/

theorem Test.size_unlined (t : Test) : t.unlined.size = t.size := by
  cases t <;> rfl

mutual

theorem Statement.size_unlined (s : Statement) : s.unlined.size = s.size := by
  cases s with
  | function f args n => rfl
  | assignment lhs rhs n => rfl
  | ifconst t block n => simp only [Statement.unlined, Statement.size, t.size_unlined, block.size_unlined]
  | ifelseconst t block elseblock n =>
    simp only [Statement.unlined, Statement.size, t.size_unlined, block.size_unlined,
      elseblock.size_unlined]
termination_by structural s

theorem StatementList.size_unlined (l : StatementList) : l.unlined.size = l.size := by
  cases l with
  | initial s => exact s.size_unlined
  | successive l s =>
    simp only [StatementList.unlined, StatementList.size, l.size_unlined, s.size_unlined]
termination_by structural l

end

end XplEvent.Script
