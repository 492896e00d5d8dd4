import XplEvent.Script.Calls
import XplEvent.Script.Refinement

/-!
# The script compiler is correct

A script compiled by the grammar actions and run by the interpreter does
what its structural evaluation does: the same assignments and built-in
calls in the same order, the same hashes at the end, the same outcome,
and no assertion on the way. This is so for every nesting of `if` and
`if`/`else` and every initial store.

It is so exactly for the scripts without an empty string literal. On the
token `""` the action of `rvalue` never returns: the closing quote is
cut off, and `UtilMoveString` is then asked to move a string of one
character without its first.
-/

namespace XplEvent.Script

variable {D σ : Type}

theorem ParserExecPcode_mono {env : Env D σ} {mode : Mode} {func : Func σ} {code : List Pcode}
    {fuel fuel' : Nat} {st : Store σ} {r : PassFail × Store σ}
    (h : ParserExecPcode env mode func code fuel st = some r) (hle : fuel ≤ fuel') :
    ParserExecPcode env mode func code fuel' st = some r := by
  rw [ParserExecPcode] at h ⊢
  cases hcode : code.isEmpty with
  | true =>
    rw [hcode] at h
    exact h
  | false =>
    rw [hcode, if_neg Bool.false_ne_true] at h
    obtain ⟨ex, hex, hr⟩ := Option.map_eq_some_iff.mp h
    rw [if_neg Bool.false_ne_true, Lib.loop_mono hex hle, ← hr]
    rfl

/-- A whole script, from the first instruction on. -/
theorem StatementList.exec_layout {env : Env D σ} {mode : Mode} {func : Func σ}
    {builtin : Builtin σ} (himpl : Implements func builtin) (l : StatementList) {depth : Int}
    {st : Store σ} (hrun : st.stopped = false) {fuel : Nat} (hfuel : l.size < fuel) :
    ParserExecPcode env mode func (l.layout 0 depth) fuel st =
      some (if (l.eval env mode builtin st).failReason.isSome then .FAIL else .PASS,
        l.eval env mode builtin st) := by
  have hsim : Simulates env mode func (l.layout 0 depth) l.size 0 ⟨st, none, 0⟩
      (l.eval env mode builtin st) :=
    l.simulates himpl 0 depth _ hrun rfl (Lib.Segment.whole (l.layout 0 depth))
  obtain ⟨n, hn, i, ex, hreach, hstore, hrest⟩ := hsim
  have hdone : execTurn env mode func (l.layout 0 depth) (i, ex) = .done ex := by
    cases hstop : ex.store.stopped with
    | true => exact turn_stopped hstop
    | false =>
      obtain ⟨hi, -⟩ := hrest (hstore ▸ hstop)
      have hget : (l.layout 0 depth)[i]? = none := by
        rw [List.getElem?_eq_none_iff, StatementList.layout_length]
        omega
      simp only [execTurn, hstop, Bool.false_eq_true, if_false, hget]
  have hne : (l.layout 0 depth).isEmpty = false := by
    have hlen := l.layout_length 0 depth
    have hpos := l.size_pos
    cases hcode : l.layout 0 depth with
    | nil =>
      rw [hcode, List.length_nil] at hlen
      omega
    | cons p ps => rfl
  rw [ParserExecPcode, hne, if_neg Bool.false_ne_true, hreach.result hdone (by omega)]
  simp only [Option.map_some, hstore]

/-! ## Built-in calls as events -/

/-- What an opaque built-in call does, given its function and arguments:
anything at all to the hashes, the fail reason and the world. -/
abbrev Effect (σ : Type) :=
  BuiltinFunction → List Arg → List ParseHashSTE → σ →
    List ParseHashSTE × Option FailReason × σ

/-- The effect as a function on argument lists. -/
def Effect.builtin (effect : Effect σ) : Builtin σ := fun f args st =>
  let (steHead, failReason, world) := effect f args st.steHead st.world
  .ok { st with steHead := steHead, failReason := failReason, world := world }

/-- The effect as the interpreter calls it. -/
def Effect.func (effect : Effect σ) : Func σ := fun code pi ex => do
  match (← deref code[pi]?).operand with
  | .token f =>
    let st ← effect.builtin f (pushedArgs code pi ex.pushCount) ex.store
    return { ex with store := st }
  | _ => .error .assertion

theorem Effect.implements (effect : Effect σ) : Implements effect.func effect.builtin := by
  intro code base f args lineNo depth ex hseg hcount
  have hget := hseg.right.get
  rw [ArgumentList.layout_length] at hget
  simp only [Effect.func, hget, deref_some, bind, Except.bind, hcount,
    pushedArgs_layout hseg.left, pure, Except.pure]
  rfl

/-! ## Compiler correctness -/

/-- The program `l` compiles, and its code run from any store performs
the structural evaluation: the trace of assignments and calls, the hashes
and the fail reason are those of `eval`, the result says whether there is
a fail reason, and no assertion has failed. -/
def CompilesCorrectly (env : Env D σ) (mode : Mode) (effect : Effect σ) (l : StatementList) :
    Prop :=
  ∃ pc, (Start.statementlist l).reduce .zero = .ok pc ∧
    ∀ st : Store σ, st.stopped = false → ∀ fuel, pc.pcodeHeader.code.length < fuel →
      ∃ st', ParserExecPcode env mode effect.func pc.pcodeHeader.code fuel st =
          some (if st'.failReason.isSome then .FAIL else .PASS, st') ∧
        st' = l.eval env mode effect.builtin st ∧ st'.fault = none

/-- An evaluation with opaque calls meets no assertion. -/
theorem Effect.eval_fault (env : Env D σ) (mode : Mode) (effect : Effect σ) (l : StatementList)
    {st : Store σ} (hrun : st.stopped = false) :
    (l.eval env mode effect.builtin st).fault = none := by
  have hkeep : ∀ f args (st st' : Store σ), effect.builtin f args st = .ok st' →
      st'.fault = st.fault := by
    intro f args st st' h
    cases h
    rfl
  have hcalls : ∀ f args (st : Store σ), st.stopped = false → st.fault = none →
      ((call effect.builtin f args st).fault = none ↔ True) :=
    fun f args st _ hst => iff_true_intro hst
  exact (l.everyCall_iff (watched_fault hkeep) hcalls hrun (st.fault_of_running hrun)).mpr
    (l.everyCall_of_forall (fun _ _ _ => trivial) st)

/-- **Compiler correctness**, with its exact condition: the script has no
empty string literal. -/
theorem compilesCorrectly_iff (env : Env D σ) (mode : Mode) (effect : Effect σ)
    (l : StatementList) : CompilesCorrectly env mode effect l ↔ l.hasEmptyString = false := by
  constructor
  · rintro ⟨pc, hreduce, -⟩
    exact l.reduce_returns hreduce
  · intro h
    refine ⟨_, l.reduce_zero h, fun st hrun fuel hfuel => ⟨_, ?_, rfl, ?_⟩⟩
    · have hlen : l.size < fuel := by
        simpa only [ParseCtrl.emit, ParseCtrl.atLine, ParseCtrl.zero, PcodeHeader.zero,
          List.nil_append, l.layout_length] using hfuel
      exact l.exec_layout effect.implements hrun hlen
    · exact effect.eval_fault env mode l hrun

/-- The assignment `$a{b} = "";`. -/
def emptyAssignment : StatementList :=
  .initial (.assignment ⟨⟨cstr "a", List.cons_ne_nil _ _⟩, ⟨cstr "b", List.cons_ne_nil _ _⟩⟩
    (.rvalue (.stringlit false [])) 1)

/-- `$a{b} = "";` is a program of the grammar, and parsing it ends the
process in `UtilMoveString`, so there is no code to run. -/
theorem emptyAssignment_not_compiled :
    ¬ (∀ (l : StatementList), CompilesCorrectly .inert ⟨false, none, false⟩
        (fun _ _ steHead world => (steHead, none, world)) l) ∧
      (Start.statementlist emptyAssignment).reduce .zero = .error .assertion := by
  have hreduce : (Start.statementlist emptyAssignment).reduce .zero = .error .assertion := rfl
  refine ⟨fun h => ?_, hreduce⟩
  obtain ⟨pc, hok, -⟩ := h emptyAssignment
  rw [hreduce] at hok
  cases hok

end XplEvent.Script
