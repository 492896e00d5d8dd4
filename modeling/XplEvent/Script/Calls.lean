import XplEvent.Script.Eval

/-!
# What only a built-in call can break

Some properties of the store are beyond the reach of assignments and
tests: that no assertion has failed, that nothing has left the process.
`Watched` says so of a property, and that a call never mends it. Whether
an evaluation keeps such a property is then a question about the calls
it reaches, one at a time (`StatementList.everyCall_iff`).
-/

namespace XplEvent.Script

variable {D σ : Type} {env : Env D σ} {mode : Mode} {builtin : Builtin σ}

variable (env mode builtin) in
/-- A property of the store that only a built-in call can break and none
can mend. -/
structure Watched (Q : Store σ → Prop) : Prop where
  assign_iff : ∀ lhs rhs lineNo st, Q (assign env mode lhs rhs lineNo st) ↔ Q st
  test_iff : ∀ (t : Test) st, Q (t.eval env mode st).2 ↔ Q st
  of_call : ∀ f args st, Q (call builtin f args st) → Q st

section

variable {Q : Store σ → Prop}

mutual

/-- A watched property that holds after a statement held before it. -/
theorem Statement.watched_before (h : Watched env mode builtin Q) (s : Statement) {st : Store σ}
    (hQ : Q (s.eval env mode builtin st)) : Q st := by
  cases s with
  | function f args n => exact h.of_call f args.args st hQ
  | assignment lhs rhs n => exact (h.assign_iff lhs rhs n st).mp hQ
  | ifconst t block n =>
    simp only [Statement.eval] at hQ
    refine (h.test_iff t st).mp ?_
    split at hQ
    · exact block.watched_before h hQ
    · exact hQ
  | ifelseconst t block elseblock n =>
    simp only [Statement.eval] at hQ
    refine (h.test_iff t st).mp ?_
    split at hQ
    · exact hQ
    split at hQ
    · exact block.watched_before h hQ
    · exact elseblock.watched_before h hQ
termination_by structural s

theorem StatementList.watched_before (h : Watched env mode builtin Q) (l : StatementList)
    {st : Store σ} (hQ : Q (l.eval env mode builtin st)) : Q st := by
  cases l with
  | initial s => exact s.watched_before h hQ
  | successive l s =>
    simp only [StatementList.eval] at hQ
    split at hQ
    · exact l.watched_before h hQ
    · exact l.watched_before h (s.watched_before h hQ)
termination_by structural l

end

variable {P : BuiltinFunction → List Arg → Store σ → Prop}

mutual

theorem Statement.everyCall_iff (h : Watched env mode builtin Q)
    (hP : ∀ f args st, st.stopped = false → Q st → (Q (call builtin f args st) ↔ P f args st))
    (s : Statement) {st : Store σ} (hrun : st.stopped = false) (hst : Q st) :
    Q (s.eval env mode builtin st) ↔ s.EveryCall env mode builtin P st := by
  cases s with
  | function f args n => exact hP f args.args st hrun hst
  | assignment lhs rhs n => exact ⟨fun _ => trivial, fun _ => (h.assign_iff lhs rhs n st).mpr hst⟩
  | ifconst t block n =>
    have htest : Q (t.eval env mode st).2 := (h.test_iff t st).mpr hst
    simp only [Statement.eval, Statement.EveryCall]
    cases hrun' : (t.eval env mode st).2.stopped with
    | true => simp only [htest, reduceCtorEq, Bool.not_true, Bool.false_and, if_false, false_implies]
    | false =>
      cases (t.eval env mode st).1 with
      | false => simp only [htest, reduceCtorEq, Bool.and_false, if_false, false_implies,
          forall_const]
      | true =>
        simp only [Bool.not_false, Bool.and_self, if_true, forall_const]
        exact block.everyCall_iff h hP hrun' htest
  | ifelseconst t block elseblock n =>
    have htest : Q (t.eval env mode st).2 := (h.test_iff t st).mpr hst
    simp only [Statement.eval, Statement.EveryCall]
    cases hrun' : (t.eval env mode st).2.stopped with
    | true => simp only [htest, if_true, reduceCtorEq, false_implies]
    | false =>
      simp only [Bool.false_eq_true, if_false, forall_const]
      cases (t.eval env mode st).1
      · exact elseblock.everyCall_iff h hP hrun' htest
      · exact block.everyCall_iff h hP hrun' htest
termination_by structural s

/-- **An evaluation keeps a watched property exactly when every call it
reaches does.** The calls are reached while the script runs and the
property still holds. -/
theorem StatementList.everyCall_iff (h : Watched env mode builtin Q)
    (hP : ∀ f args st, st.stopped = false → Q st → (Q (call builtin f args st) ↔ P f args st))
    (l : StatementList) {st : Store σ} (hrun : st.stopped = false) (hst : Q st) :
    Q (l.eval env mode builtin st) ↔ l.EveryCall env mode builtin P st := by
  cases l with
  | initial s => exact s.everyCall_iff h hP hrun hst
  | successive l s =>
    have hl := l.everyCall_iff h hP hrun hst
    simp only [StatementList.eval, StatementList.EveryCall]
    cases hrun' : (l.eval env mode builtin st).stopped with
    | true => simp only [if_true, hl, reduceCtorEq, false_implies, and_true]
    | false =>
      simp only [Bool.false_eq_true, if_false, forall_const]
      constructor
      · intro hQ
        have hmid := s.watched_before h hQ
        exact ⟨hl.mp hmid, (s.everyCall_iff h hP hrun' hmid).mp hQ⟩
      · rintro ⟨hcalls, hs⟩
        exact (s.everyCall_iff h hP hrun' (hl.mpr hcalls)).mpr hs
termination_by structural l

end

mutual

theorem Statement.everyCall_of_forall (h : ∀ f args st, P f args st) (s : Statement)
    (st : Store σ) : s.EveryCall env mode builtin P st := by
  cases s with
  | function f args n => exact h f args.args st
  | assignment lhs rhs n => trivial
  | ifconst t block n => exact fun _ _ => block.everyCall_of_forall h _
  | ifelseconst t block elseblock n =>
    simp only [Statement.EveryCall]
    intro _
    cases (t.eval env mode st).1
    · exact elseblock.everyCall_of_forall h _
    · exact block.everyCall_of_forall h _
termination_by structural s

theorem StatementList.everyCall_of_forall (h : ∀ f args st, P f args st) (l : StatementList)
    (st : Store σ) : l.EveryCall env mode builtin P st := by
  cases l with
  | initial s => exact s.everyCall_of_forall h st
  | successive l s =>
    exact ⟨l.everyCall_of_forall h st, fun _ => s.everyCall_of_forall h _⟩
termination_by structural l

end

end

/-! ## What assignments and tests leave alone -/

/-- Only the fail reason and the world have changed. -/
structure Quiet (st st' : Store σ) : Prop where
  steHead : st'.steHead = st.steHead
  fault : st'.fault = st.fault
  trace : st'.trace = st.trace

namespace Quiet

variable {st st' st'' : Store σ}

theorem refl (st : Store σ) : Quiet st st := ⟨rfl, rfl, rfl⟩

theorem trans (h : Quiet st st') (h' : Quiet st' st'') : Quiet st st'' :=
  ⟨h'.steHead.trans h.steHead, h'.fault.trans h.fault, h'.trace.trans h.trace⟩

end Quiet

theorem Operand.eval_quiet {o : Operand} {st st' : Store σ} {value : Option CString}
    (h : o.eval env mode st = (value, st')) : Quiet st st' := by
  cases o with
  | rvalue r =>
    cases h
    exact Quiet.refl st
  | hash k =>
    simp only [Operand.eval, ParserHashGetValue] at h
    split at h
    · cases h
      exact ⟨rfl, rfl, rfl⟩
    · cases h
      exact Quiet.refl st

variable (mode) in
theorem Store.undefined_quiet (st : Store σ) (var : CString) (lineNo : Int) :
    Quiet st (st.undefined mode var lineNo) := by
  simp only [Store.undefined]
  split <;> exact ⟨rfl, rfl, rfl⟩

theorem Test.eval_quiet (t : Test) (st : Store σ) : Quiet st (t.eval env mode st).2 := by
  cases t with
  | exists_ h n => exact Operand.eval_quiet (o := .hash h) rfl
  | compare l op r n =>
    simp only [Test.eval]
    rcases hl : l.eval env mode st with ⟨_ | value, st₁⟩
    · exact (Operand.eval_quiet hl).trans (st₁.undefined_quiet mode l.name n)
    refine (Operand.eval_quiet hl).trans ?_
    simp only
    split
    · exact ⟨rfl, rfl, rfl⟩
    rcases hr : r.eval env mode st₁ with ⟨_ | rvalue, st₂⟩
    · exact (Operand.eval_quiet hr).trans (st₂.undefined_quiet mode r.name n)
    refine (Operand.eval_quiet hr).trans ?_
    simp only
    split <;> exact ⟨rfl, rfl, rfl⟩

theorem ParserHashAddKeyValue_trace {st st' : Store σ} {hashName key value : CString}
    {res : PassFail}
    (h : ParserHashAddKeyValue env mode st hashName key value = (res, st')) :
    st'.fault = st.fault ∧
      ∃ e, st'.trace = st.trace ++ [e] ∧ (mode.DB = false → e.isExternal = false) := by
  simp only [ParserHashAddKeyValue] at h
  split at h
  · rename_i hdb
    cases h
    refine ⟨rfl, .dbWrite key value, rfl, fun hfalse => ?_⟩
    rw [hfalse] at hdb
    cases hdb.1
  · cases h
    exact ⟨rfl, .hashAssign hashName key value, rfl, fun _ => rfl⟩

variable (env mode) in
/-- An assignment adds at most one step to the trace. -/
theorem assign_trace (lhs : Hash) (rhs : Operand) (lineNo : Int) (st : Store σ) :
    (assign env mode lhs rhs lineNo st).fault = st.fault ∧
      ∃ es, (assign env mode lhs rhs lineNo st).trace = st.trace ++ es ∧
        (mode.DB = false → ∀ e ∈ es, e.isExternal = false) := by
  simp only [assign]
  rcases hr : rhs.eval env mode st with ⟨_ | value, st₁⟩
  · have h := (Operand.eval_quiet hr).trans (st₁.undefined_quiet mode rhs.name lineNo)
    exact ⟨h.fault, [], by rw [List.append_nil, h.trace], fun _ e he => nomatch he⟩
  have h₁ := Operand.eval_quiet hr
  rcases hput : ParserHashAddKeyValue env mode st₁ lhs.scalar.text lhs.key.text value
    with ⟨_ | _, st₂⟩ <;> simp only [hput]
  · obtain ⟨hfault, e, htrace, hext⟩ := ParserHashAddKeyValue_trace hput
    refine ⟨hfault.trans h₁.fault, [e], htrace.trans (by rw [h₁.trace]), fun hdb q hq => ?_⟩
    rw [List.mem_singleton.mp hq]
    exact hext hdb
  · obtain ⟨hfault, e, htrace, hext⟩ := ParserHashAddKeyValue_trace hput
    have h₂ := st₂.undefined_quiet mode lhs.scalar.text lineNo
    refine ⟨h₂.fault.trans (hfault.trans h₁.fault), [e],
      h₂.trace.trans (htrace.trans (by rw [h₁.trace])), fun hdb q hq => ?_⟩
    rw [List.mem_singleton.mp hq]
    exact hext hdb

/-! ## The two watched properties -/

theorem Store.fault_of_running {st : Store σ} (h : st.stopped = false) : st.fault = none := by
  have hfault := (Bool.or_eq_false_iff.mp h).2
  cases hf : st.fault with
  | none => rfl
  | some f =>
    rw [hf] at hfault
    cases hfault

/-- That no assertion has failed is watched, if the built-in functions do
not clear the mark. -/
theorem watched_fault
    (h : ∀ f args (st st' : Store σ), builtin f args st = .ok st' → st'.fault = st.fault) :
    Watched env mode builtin fun st => st.fault = none where
  assign_iff lhs rhs n st := by rw [(assign_trace env mode lhs rhs n st).1]
  test_iff t st := by rw [(t.eval_quiet st).fault]
  of_call f args st hst := by
    simp only [call] at hst
    split at hst
    · rename_i st' hok
      rw [← h f args _ st' hok, hst]
    · cases hst

/-- That nothing has left the process is watched without a database, if
the built-in functions only ever add to the trace. -/
theorem watched_trace (hdb : mode.DB = false)
    (h : ∀ f args (st st' : Store σ), builtin f args st = .ok st' →
      ∃ es, st'.trace = st.trace ++ es) :
    Watched env mode builtin fun st => ∀ e ∈ st.trace, e.isExternal = false where
  assign_iff lhs rhs n st := by
    obtain ⟨-, es, htrace, hext⟩ := assign_trace env mode lhs rhs n st
    rw [htrace]
    refine ⟨fun hst e he => hst e (List.mem_append_left es he), fun hst e he => ?_⟩
    rcases List.mem_append.mp he with he | he
    · exact hst e he
    · exact hext hdb e he
  test_iff t st := by rw [(t.eval_quiet st).trace]
  of_call f args st hst := by
    simp only [call] at hst
    split at hst
    · rename_i st' hok
      obtain ⟨es, hes⟩ := h f args _ st' hok
      intro e he
      refine hst e ?_
      rw [hes]
      exact List.mem_append_left es (List.mem_append_left _ he)
    · exact hst

end XplEvent.Script
