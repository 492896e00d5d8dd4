import XplEvent.Lib.Segment
import XplEvent.Script.Layout

/-!
# The interpreter refines the structural evaluation

`Statement.simulates` runs the interpreter over the code of one statement,
wherever that code stands, and finds the store the evaluation of the tree
gives. Between two statements the argument registers are at rest
(`firstPush` is not set); inside one, `pushes_reach` says what a row of
pushes leaves in them, which is what the assertions on `pushCount` and
the walks along `prev` rely on.

What a built-in function does is a parameter. `Implements` says that a
function handed to the interpreter, which finds its arguments in the
code, does what a function on argument lists says.
-/

namespace XplEvent.Script

open Lib (Reaches Segment Turn loop)

variable {D σ : Type} {env : Env D σ} {mode : Mode} {func : Func σ} {code : List Pcode}

/-! ## Single turns -/

theorem turn_next {i j : Nat} (ex : ExecState σ) {ex' : ExecState σ} {pe : Pcode}
    (hrun : ex.store.stopped = false) (hpe : code[i]? = some pe)
    (hexec : execInstr env mode func code i pe (resetPush pe ex) = .ok (j, ex')) :
    Reaches (execTurn env mode func code) 1 (i, ex) (j + 1, ex') := by
  apply Reaches.again
  simp only [execTurn, hrun, Bool.false_eq_true, if_false, hpe, hexec]

theorem turn_stopped {i : Nat} {ex : ExecState σ} (h : ex.store.stopped = true) :
    execTurn env mode func code (i, ex) = .done ex := by
  simp only [execTurn, h, if_true]

/-- An assertion ends the process in the state before the instruction. -/
theorem turn_fault {i : Nat} {ex : ExecState σ} {pe : Pcode} {f : Fault}
    (hrun : ex.store.stopped = false) (hpe : code[i]? = some pe)
    (hexec : execInstr env mode func code i pe (resetPush pe ex) = .error f) :
    Reaches (execTurn env mode func code) 1 (i, ex)
      (i, { ex with store := { ex.store with fault := some f } }) := by
  have hturn : execTurn env mode func code (i, ex) =
      .done { ex with store := { ex.store with fault := some f } } := by
    simp only [execTurn, hrun, Bool.false_eq_true, if_false, hpe, hexec]
  apply Reaches.done hturn
  apply turn_stopped
  simp only [Store.stopped, Option.isSome_some, Bool.or_true]

/-! ## Pushes -/

/-- Pushes that follow a first one only count. -/
theorem more_pushes_reach {l : List Pcode} (hl : ∀ p ∈ l, p.opcode = .OP_PUSH) {base k : Nat}
    (ex : ExecState σ) (hrun : ex.store.stopped = false) (hfirst : ex.firstPush = some k)
    (hseg : Segment code base l) :
    Reaches (execTurn env mode func code) l.length (base, ex)
      (base + l.length, { ex with pushCount := ex.pushCount + l.length }) := by
  induction l generalizing base ex with
  | nil => exact Reaches.refl _
  | cons p l ih =>
    have hp : p.opcode = .OP_PUSH := hl p List.mem_cons_self
    have hstep : Reaches (execTurn env mode func code) 1 (base, ex)
        (base + 1, { ex with pushCount := ex.pushCount + 1 }) := by
      apply turn_next _ hrun hseg.get
      simp only [execInstr, resetPush, hp, if_true, hfirst, Option.isNone_some,
        Bool.false_eq_true, if_false]
    have hrest := hstep.trans
      (ih (fun q hq => hl q (List.mem_cons_of_mem _ hq)) _ hrun hfirst hseg.tail)
    rw [List.length_cons, Nat.add_comm l.length 1]
    simpa only [Nat.add_assoc] using hrest

/-- A row of pushes leaves the number of its instructions in `pushCount`. -/
theorem pushes_reach {l : List Pcode} (hl : ∀ p ∈ l, p.opcode = .OP_PUSH) (hne : l ≠ [])
    {base : Nat} {ex : ExecState σ} (hrun : ex.store.stopped = false) (hfirst : ex.firstPush = none)
    (hseg : Segment code base l) :
    Reaches (execTurn env mode func code) l.length (base, ex)
      (base + l.length, ⟨ex.store, some base, l.length⟩) := by
  cases l with
  | nil => exact absurd rfl hne
  | cons p l =>
    have hp : p.opcode = .OP_PUSH := hl p List.mem_cons_self
    have hstep : Reaches (execTurn env mode func code) 1 (base, ex)
        (base + 1, ⟨ex.store, some base, 1⟩) := by
      apply turn_next _ hrun hseg.get
      simp only [execInstr, resetPush, hp, if_true, hfirst, Option.isNone_none, Nat.zero_add]
    have hrest := hstep.trans (more_pushes_reach
      (fun q hq => hl q (List.mem_cons_of_mem _ hq)) ⟨ex.store, some base, 1⟩ hrun rfl hseg.tail)
    rw [List.length_cons, Nat.add_comm l.length 1]
    simpa only [Nat.add_assoc] using hrest

theorem Operand.instr_opcode (o : Operand) (lineNo : Int) (seq : Nat) (depth : Int) :
    (o.instr lineNo seq depth).opcode = .OP_PUSH := by
  cases o <;> rfl

theorem ArgumentList.layout_opcode (l : ArgumentList) (lineNo : Int) (base : Nat) (depth : Int) :
    ∀ p ∈ l.layout lineNo base depth, p.opcode = .OP_PUSH := by
  have harg : ∀ (a : Argument) (seq : Nat), (a.instr lineNo seq depth).opcode = .OP_PUSH := by
    intro a seq
    cases a <;> rfl
  induction l with
  | initial a =>
    intro p hp
    rw [List.mem_singleton.mp hp]
    exact harg a base
  | successive l a ih =>
    intro p hp
    rcases List.mem_append.mp hp with hp | hp
    · exact ih p hp
    · rw [List.mem_singleton.mp hp]
      exact harg a _

theorem Test.pushes_opcode (t : Test) (base : Nat) (depth : Int) :
    ∀ p ∈ t.pushes base depth, p.opcode = .OP_PUSH := by
  intro p hp
  cases t with
  | compare l op r lineNo =>
    rcases List.mem_cons.mp hp with rfl | hp
    · exact l.instr_opcode lineNo base depth
    · rw [List.mem_singleton.mp hp]
      exact r.instr_opcode lineNo _ depth
  | exists_ h lineNo =>
    rw [List.mem_singleton.mp hp]
    rfl

/-! ## Values -/

theorem Operand.getValue (o : Operand) (lineNo : Int) (seq : Nat) (depth : Int) (st : Store σ) :
    ParserPcodeGetValue env mode st (o.instr lineNo seq depth) = .ok (o.eval env mode st) := by
  rcases o with h | t | t | ⟨wide, body⟩ <;> rfl

@[simp] theorem Operand.instr_data1 (o : Operand) (lineNo : Int) (seq : Nat) (depth : Int) :
    (o.instr lineNo seq depth).data1 = some o.name := by
  cases o <;> rfl

@[simp] theorem undefVar_some (st : Store σ) (var : CString) (lineNo : Int) :
    undefVar mode st (some var) lineNo = .ok (st.undefined mode var lineNo) := rfl

/-- The instruction a number of places back, in a segment that reaches
up to the current one. -/
theorem prev_segment {l : List Pcode} {base n : Nat} {p : Pcode} (hseg : Segment code base l)
    (hn : n ≤ l.length) (hp : l[l.length - n]? = some p) :
    prev code (base + l.length) n = .ok p := by
  have hget : code[base + l.length - n]? = some p := by
    rw [show base + l.length - n = base + (l.length - n) by omega]
    exact hseg.getElem? hp
  rw [prev, if_pos (by omega), hget]
  rfl

/-! ## Tests -/

theorem Test.pushes_ne_nil (t : Test) (base : Nat) (depth : Int) : t.pushes base depth ≠ [] := by
  cases t <;> exact List.cons_ne_nil _ _

theorem execTest2_eq (l r : Operand) (op : Testop) (n : Int) (i j : Nat) (depth : Int)
    (st : Store σ) :
    execTest2 env mode st (l.instr n i depth) (r.instr n j depth) op n =
      .ok (!((Test.compare l op r n).eval env mode st).1,
        ((Test.compare l op r n).eval env mode st).2) := by
  simp only [execTest2, Test.eval, Operand.getValue, Operand.instr_data1, undefVar_some, bind,
    Except.bind]
  rcases l.eval env mode st with ⟨_ | value, st⟩
  · rfl
  by_cases hl : op.rejects env value = true
  · simp only [hl, if_true]
    rfl
  simp only [hl, Bool.false_eq_true, if_false, pure, Except.pure]
  rcases r.eval env mode st with ⟨_ | rvalue, st⟩
  · rfl
  by_cases hr : op.rejects env rvalue = true
  · simp only [hr, if_true]
    rfl
  · simp only [hr, Bool.false_eq_true, if_false]

/-- The registers before the test instruction, with its operands pushed. -/
def Test.pushedState (t : Test) (base : Nat) (st : Store σ) : ExecState σ :=
  ⟨st, some base, t.size - 1⟩

theorem Test.pushes_reach (t : Test) {base : Nat} {depth : Int} {skip : Option Nat} {ex : ExecState σ}
    (hrun : ex.store.stopped = false) (hfirst : ex.firstPush = none)
    (hseg : Segment code base (t.code base depth skip)) :
    Reaches (execTurn env mode func code) (t.size - 1) (base, ex)
      (base + (t.size - 1), t.pushedState base ex.store) := by
  have hpushes : Reaches (execTurn env mode func code) (t.pushes base depth).length (base, ex) _ :=
    Script.pushes_reach (t.pushes_opcode base depth) (t.pushes_ne_nil base depth) hrun hfirst hseg.left
  cases t with
  | compare | exists_ => exact hpushes

variable (env mode func) in
/-- The test instruction: it is passed, or the skip target is where the
loop goes on. -/
theorem Test.execInstr_eq (t : Test) {base : Nat} {depth : Int} {skip : Option Nat} (st : Store σ)
    (hseg : Segment code base (t.code base depth skip)) :
    code[base + (t.size - 1)]? = some (t.instr base depth skip) ∧
      execInstr env mode func code (base + (t.size - 1)) (t.instr base depth skip)
          (resetPush (t.instr base depth skip) (t.pushedState base st)) =
        bif (t.eval env mode st).1 then
          .ok (base + (t.size - 1), ⟨(t.eval env mode st).2, none, t.size - 1⟩)
        else skip.elim (.error .assertion) fun j =>
          .ok (j, ⟨(t.eval env mode st).2, none, t.size - 1⟩) := by
  cases t with
  | compare l op r n =>
    refine ⟨hseg.right.get, ?_⟩
    have hleft : prev code (base + 2) 2 = .ok (l.instr n base depth) :=
      prev_segment hseg.left (Nat.le_refl 2) rfl
    have hright : prev code (base + 2) 1 = .ok (r.instr n (base + 1) depth) :=
      prev_segment hseg.left (Nat.le_succ 1) rfl
    simp only [execInstr, resetPush, Test.instr, Test.size, Test.pushedState, Nat.add_one_sub_one,
      reduceCtorEq, if_false, decide_true, ASSERT_FAIL_true, hleft, hright, execTest2_eq, bind,
      Except.bind, pure, Except.pure]
    rcases (Test.compare l op r n).eval env mode st with ⟨_ | _, st'⟩
    · cases skip <;> rfl
    · rfl
  | exists_ h n =>
    refine ⟨hseg.right.get, ?_⟩
    have hleft : prev code (base + 1) 1 = .ok ((Operand.hash h).instr n base depth) :=
      prev_segment hseg.left (Nat.le_refl 1) rfl
    simp only [execInstr, resetPush, Test.instr, Test.size, Test.pushedState, Nat.add_one_sub_one,
      reduceCtorEq, if_false, decide_true, ASSERT_FAIL_true, hleft, Operand.getValue, Test.eval, bind,
      Except.bind, pure, Except.pure]
    rcases (Operand.hash h).eval env mode st with ⟨_ | value, st'⟩
    · cases skip <;> rfl
    · rfl

theorem Test.size_pos (t : Test) : 0 < t.size := by
  cases t <;> exact Nat.zero_lt_succ _

variable (env mode func) in
/-- A test, operands and all: the next instruction is the block's when
the test lets it run, and the one after the skip target otherwise. -/
theorem Test.reaches (t : Test) {base target : Nat} {depth : Int} {ex : ExecState σ}
    (hrun : ex.store.stopped = false) (hfirst : ex.firstPush = none)
    (hseg : Segment code base (t.code base depth (some target))) :
    ∃ ex', Reaches (execTurn env mode func code) t.size (base, ex)
        (if (t.eval env mode ex.store).1 then base + t.size else target + 1, ex') ∧
      ex'.store = (t.eval env mode ex.store).2 ∧ ex'.firstPush = none := by
  have hpushes : Reaches (execTurn env mode func code) (t.size - 1) (base, ex) _ :=
    t.pushes_reach hrun hfirst hseg
  obtain ⟨hget, hexec⟩ := t.execInstr_eq env mode func ex.store hseg
  have hsize : t.size - 1 + 1 = t.size := Nat.sub_add_cancel t.size_pos
  refine ⟨⟨(t.eval env mode ex.store).2, none, t.size - 1⟩, ?_, rfl, rfl⟩
  cases henter : (t.eval env mode ex.store).1 with
  | true =>
    rw [henter] at hexec
    have hreach := hpushes.trans (turn_next (t.pushedState base ex.store) hrun hget hexec)
    rwa [Nat.add_assoc, hsize] at hreach
  | false =>
    rw [henter] at hexec
    have hreach := hpushes.trans (turn_next (t.pushedState base ex.store) hrun hget hexec)
    rwa [hsize] at hreach

variable (env mode func) in
/-- A test that has no skip target yet: it is passed, or ends the process. -/
theorem Test.reaches_open (t : Test) {base : Nat} {depth : Int} {ex : ExecState σ}
    (hrun : ex.store.stopped = false) (hfirst : ex.firstPush = none)
    (hseg : Segment code base (t.code base depth none)) :
    ∃ i ex', Reaches (execTurn env mode func code) t.size (base, ex) (i, ex') ∧
      if (t.eval env mode ex.store).1 then
        i = base + t.size ∧ ex'.store = (t.eval env mode ex.store).2 ∧ ex'.firstPush = none
      else ex'.store = { ex.store with fault := some .assertion } := by
  have hpushes : Reaches (execTurn env mode func code) (t.size - 1) (base, ex) _ :=
    t.pushes_reach hrun hfirst hseg
  obtain ⟨hget, hexec⟩ := t.execInstr_eq env mode func ex.store hseg
  have hsize : t.size - 1 + 1 = t.size := Nat.sub_add_cancel t.size_pos
  cases henter : (t.eval env mode ex.store).1 with
  | true =>
    rw [henter] at hexec
    have hreach := hpushes.trans (turn_next (t.pushedState base ex.store) hrun hget hexec)
    rw [Nat.add_assoc, hsize] at hreach
    exact ⟨_, _, hreach, rfl, rfl, rfl⟩
  | false =>
    rw [henter] at hexec
    have hfault : Reaches (execTurn env mode func code) 1
        (base + (t.size - 1), t.pushedState base ex.store) _ := turn_fault hrun hget hexec
    have hreach := hpushes.trans hfault
    rw [hsize] at hreach
    exact ⟨_, _, hreach, rfl⟩

/-! ## Simulation -/

variable (env mode func code) in
/-- The interpreter, started at position `base`, gets to the store `st`
within `size` turns. If the store lets it go on, it stands `size`
instructions further with its registers at rest. -/
def Simulates (size base : Nat) (ex : ExecState σ) (st : Store σ) : Prop :=
  ∃ n ≤ size, ∃ i ex', Reaches (execTurn env mode func code) n (base, ex) (i, ex') ∧
    ex'.store = st ∧ (st.stopped = false → i = base + size ∧ ex'.firstPush = none)

/-- A function handed to the interpreter does what `builtin` says. -/
def Implements (func : Func σ) (builtin : Builtin σ) : Prop :=
  ∀ (code : List Pcode) (base : Nat) (f : BuiltinFunction) (args : ArgumentList) (lineNo : Int)
    (depth : Int) (ex : ExecState σ),
    Segment code base ((Statement.function f args lineNo).layout base depth) →
    ex.pushCount = args.size →
    func code (base + args.size) ex =
      (builtin f args.args ex.store).map fun st => { ex with store := st }

namespace Simulates

variable {size size' base : Nat} {ex : ExecState σ} {st st' : Store σ}

/-- A stretch that stops early is a stretch of any greater size. -/
theorem stop (h : Simulates env mode func code size base ex st) (hstop : st.stopped = true)
    (hle : size ≤ size') : Simulates env mode func code size' base ex st := by
  obtain ⟨n, hn, i, ex', hreach, hst, -⟩ := h
  refine ⟨n, Nat.le_trans hn hle, i, ex', hreach, hst, fun hrun => ?_⟩
  rw [hstop] at hrun
  cases hrun

/-- One stretch after another, the second only if the first lets it. -/
theorem seq (h : Simulates env mode func code size base ex st)
    (hstop : st.stopped = true → st' = st)
    (hnext : ∀ ex', ex'.store = st → ex'.firstPush = none → st.stopped = false →
      Simulates env mode func code size' (base + size) ex' st') :
    Simulates env mode func code (size + size') base ex st' := by
  cases hrun : st.stopped with
  | true =>
    rw [hstop hrun]
    exact h.stop hrun (Nat.le_add_right _ _)
  | false =>
    obtain ⟨n, hn, i, ex', hreach, hst, hrest⟩ := h
    obtain ⟨rfl, hfirst⟩ := hrest hrun
    obtain ⟨m, hm, j, ex'', hreach', hst', hrest'⟩ := hnext ex' hst hfirst hrun
    refine ⟨n + m, by omega, j, ex'', hreach.trans hreach', hst', fun hrun' => ?_⟩
    obtain ⟨hj, hfirst'⟩ := hrest' hrun'
    exact ⟨by omega, hfirst'⟩

/-- A stretch entered after some turns. -/
theorem after {n i : Nat} {ex' : ExecState σ}
    (hreach : Reaches (execTurn env mode func code) n (base, ex) (i, ex'))
    (h : Simulates env mode func code size i ex' st) (hi : base + size' = i + size)
    (hn : n + size ≤ size') : Simulates env mode func code size' base ex st := by
  obtain ⟨m, hm, j, ex'', hreach', hst, hrest⟩ := h
  refine ⟨n + m, by omega, j, ex'', hreach.trans hreach', hst, fun hrun => ?_⟩
  obtain ⟨hj, hfirst⟩ := hrest hrun
  exact ⟨by omega, hfirst⟩

/-- Some turns that end where the stretch does, with the registers at rest. -/
theorem reached {n i : Nat} {ex' : ExecState σ}
    (hreach : Reaches (execTurn env mode func code) n (base, ex) (i, ex'))
    (hi : i = base + size) (hstore : ex'.store = st) (hfirst : ex'.firstPush = none)
    (hn : n ≤ size) : Simulates env mode func code size base ex st :=
  ⟨n, hn, i, ex', hreach, hstore, fun _ => ⟨hi, hfirst⟩⟩

/-- Some turns after which nothing more runs. -/
theorem stopped {n i : Nat} {ex' : ExecState σ}
    (hreach : Reaches (execTurn env mode func code) n (base, ex) (i, ex'))
    (hstop : ex'.store.stopped = true) (hn : n ≤ size) :
    Simulates env mode func code size base ex ex'.store := by
  refine ⟨n, hn, i, ex', hreach, rfl, fun hrun => ?_⟩
  rw [hstop] at hrun
  cases hrun

/-- A single turn that stays in place and rests the registers. -/
theorem turn (ex : ExecState σ) {ex' : ExecState σ} {pe : Pcode}
    (hrun : ex.store.stopped = false) (hpe : code[base]? = some pe)
    (hexec : execInstr env mode func code base pe (resetPush pe ex) = .ok (base, ex'))
    (hfirst : ex'.firstPush = none) :
    Simulates env mode func code 1 base ex ex'.store :=
  reached (turn_next ex hrun hpe hexec) rfl rfl hfirst (Nat.le_refl 1)

/-- A single turn in which an assertion fails. -/
theorem fault (ex : ExecState σ) {pe : Pcode} {f : Fault} (hrun : ex.store.stopped = false)
    (hpe : code[base]? = some pe)
    (hexec : execInstr env mode func code base pe (resetPush pe ex) = .error f) :
    Simulates env mode func code 1 base ex { ex.store with fault := some f } := by
  refine stopped (turn_fault hrun hpe hexec) ?_ (Nat.le_refl 1)
  simp only [Store.stopped, Option.isSome_some, Bool.or_true]

end Simulates

/-! ## Calls -/

theorem ArgumentList.layout_args (l : ArgumentList) (lineNo : Int) (base : Nat) (depth : Int) :
    (l.layout lineNo base depth).map (fun p => (p.operand, p.data1)) = l.args := by
  have harg : ∀ (a : Argument) (seq : Nat),
      ((a.instr lineNo seq depth).operand, (a.instr lineNo seq depth).data1) = a.arg := by
    intro a seq
    rcases a with r | n <;> rfl
  induction l with
  | initial a => exact congrArg (· :: []) (harg a base)
  | successive l a ih =>
    simp only [ArgumentList.layout, List.map_append, ih, List.map_cons, harg, List.map_nil]
    rfl

theorem ArgumentList.layout_ne_nil (l : ArgumentList) (lineNo : Int) (base : Nat) (depth : Int) :
    l.layout lineNo base depth ≠ [] := by
  cases l with
  | initial a => exact List.cons_ne_nil _ _
  | successive l a => exact List.append_ne_nil_of_right_ne_nil _ (List.cons_ne_nil _ _)

/-- The arguments a call finds are the arguments it was written with. -/
theorem pushedArgs_layout {base : Nat} {args : ArgumentList} {lineNo depth : Int}
    (hseg : Segment code base (args.layout lineNo base depth)) :
    pushedArgs code (base + args.size) args.size = args.args := by
  have htake := hseg.take_drop
  rw [ArgumentList.layout_length] at htake
  rw [pushedArgs, Nat.add_sub_cancel, htake, args.layout_args]

theorem function_simulates {builtin : Builtin σ} (himpl : Implements func builtin)
    (f : BuiltinFunction) (args : ArgumentList) (lineNo : Int) {base : Nat} {depth : Int}
    {ex : ExecState σ} (hrun : ex.store.stopped = false) (hfirst : ex.firstPush = none)
    (hseg : Segment code base ((Statement.function f args lineNo).layout base depth)) :
    Simulates env mode func code (args.size + 1) base ex (call builtin f args.args ex.store) := by
  have hpushes : Reaches (execTurn env mode func code) _ (base, ex) _ :=
    pushes_reach (args.layout_opcode lineNo base depth) (args.layout_ne_nil lineNo base depth)
      hrun hfirst hseg.left
  have hget := hseg.right.get
  rw [ArgumentList.layout_length] at hpushes hget
  have hargs : pushedArgs code (base + args.size) args.size = args.args :=
    pushedArgs_layout hseg.left
  let st : Store σ := { ex.store with trace := ex.store.trace ++ [.builtinCall f args.args] }
  have hfunc : func code (base + args.size) ⟨st, none, args.size⟩ =
      (builtin f args.args st).map fun st => ⟨st, none, args.size⟩ :=
    himpl code base f args lineNo depth ⟨st, none, args.size⟩ hseg rfl
  have hexec : execInstr env mode func code (base + args.size)
      ⟨.OP_FUNC, .token f, lineNo, base + args.size, depth, some f.token.stringVal, none, none⟩
      ⟨ex.store, none, args.size⟩ =
      (builtin f args.args st).map fun st => (base + args.size, ⟨st, none, args.size⟩) := by
    simp only [execInstr, hargs, bind, Except.bind]
    rw [hfunc]
    cases builtin f args.args st <;> rfl
  refine Simulates.after hpushes ?_ rfl (Nat.le_refl _)
  let ex' : ExecState σ := ⟨ex.store, some base, args.size⟩
  cases hcall : builtin f args.args st with
  | ok st' =>
    have hstore : call builtin f args.args ex.store = st' := by
      simp only [call, st, hcall]
    rw [hcall] at hexec
    rw [hstore]
    exact Simulates.turn ex' hrun hget hexec rfl
  | error e =>
    have hstore : call builtin f args.args ex.store = { ex'.store with fault := some e } := by
      simp only [call, st, hcall, ex']
    rw [hcall] at hexec
    rw [hstore]
    exact Simulates.fault ex' hrun hget hexec

/-! ## Assignments -/

theorem assignment_simulates (lhs : Hash) (rhs : Operand) (lineNo : Int) {base : Nat} {depth : Int}
    {ex : ExecState σ} (hrun : ex.store.stopped = false) (hfirst : ex.firstPush = none)
    (hseg : Segment code base ((Statement.assignment lhs rhs lineNo).layout base depth)) :
    Simulates env mode func code 3 base ex (assign env mode lhs rhs lineNo ex.store) := by
  let operands := [lhs.instr lineNo base depth, rhs.instr lineNo (base + 1) depth]
  have hsegs : Segment code base (operands ++ [⟨.OP_ASSIGN, .none, lineNo, base + 2, depth,
      some rhs.assignAnno, none, none⟩]) := hseg
  have hops : ∀ p ∈ operands, p.opcode = .OP_PUSH := by
    intro p hp
    rcases List.mem_cons.mp hp with rfl | hp
    · rfl
    · rw [List.mem_singleton.mp hp]
      exact rhs.instr_opcode lineNo _ depth
  have hpushes : Reaches (execTurn env mode func code) 2 (base, ex) (base + 2, _) :=
    pushes_reach hops (List.cons_ne_nil _ _) hrun hfirst hsegs.left
  have hleft : prev code (base + 2) 2 = .ok ((Operand.hash lhs).instr lineNo base depth) :=
    prev_segment hsegs.left (Nat.le_refl 2) rfl
  have hright : prev code (base + 2) 1 = .ok (rhs.instr lineNo (base + 1) depth) :=
    prev_segment hsegs.left (Nat.le_succ 1) rfl
  have hput : ∀ (st : Store σ) (value : CString), ParserPcodePutValue env mode st
      ((Operand.hash lhs).instr lineNo base depth) value =
        .ok (ParserHashAddKeyValue env mode st lhs.scalar.text lhs.key.text value) :=
    fun _ _ => rfl
  have hexec : execInstr env mode func code (base + 2)
      ⟨.OP_ASSIGN, .none, lineNo, base + 2, depth, some rhs.assignAnno, none, none⟩
      ⟨ex.store, none, 2⟩ =
        .ok (base + 2, ⟨assign env mode lhs rhs lineNo ex.store, none, 2⟩) := by
    simp only [execInstr, decide_true, ASSERT_FAIL_true, hleft, hright, Operand.getValue, hput,
      Operand.instr_data1, undefVar_some, bind, Except.bind, pure, Except.pure, assign]
    rcases rhs.eval env mode ex.store with ⟨_ | value, st⟩
    · rfl
    simp only
    rcases ParserHashAddKeyValue env mode st lhs.scalar.text lhs.key.text value with ⟨_ | _, st⟩
    · rfl
    · rfl
  have hturn : Simulates env mode func code 1 (base + 2) ⟨ex.store, some base, 2⟩
      (assign env mode lhs rhs lineNo ex.store) :=
    Simulates.turn ⟨ex.store, some base, 2⟩ hrun hsegs.right.get hexec rfl
  exact Simulates.after hpushes hturn rfl (Nat.le_refl 3)

/-! ## Blocks -/

/-- An open-block instruction does nothing. -/
theorem blockBegin_simulates {n : Int} {seq base : Nat} {depth : Int} {ex : ExecState σ}
    (hrun : ex.store.stopped = false) (hget : code[base]? = some (blockBegin n seq depth)) :
    Simulates env mode func code 1 base ex ex.store := by
  have hturn : Reaches (execTurn env mode func code) 1 (base, ex)
      (base + 1, { ex with firstPush := none }) := turn_next ex hrun hget rfl
  exact Simulates.reached hturn rfl rfl rfl (Nat.le_refl 1)

/-- A block is entered through its open-block instruction. -/
theorem block_simulates {n : Int} {seq size base : Nat} {depth : Int} {ex : ExecState σ}
    {st : Store σ} (hrun : ex.store.stopped = false)
    (hget : code[base]? = some (blockBegin n seq depth))
    (hblock : ∀ ex' : ExecState σ, ex'.store = ex.store → ex'.firstPush = none →
      Simulates env mode func code size (base + 1) ex' st) :
    Simulates env mode func code (1 + size) base ex st := by
  refine Simulates.seq (blockBegin_simulates hrun hget) ?_
    fun ex' hstore hfirst _ => hblock ex' hstore hfirst
  intro hstop
  rw [hrun] at hstop
  cases hstop

/-- A close-block instruction does nothing, or skips to the end of the
block that follows. -/
theorem blockEnd_reaches {n : Int} {seq : Nat} {depth : Int} {base : Nat} {skip : Option Nat}
    {ex : ExecState σ} (hrun : ex.store.stopped = false)
    (hget : code[base]? = some (blockEnd n seq depth skip)) :
    Reaches (execTurn env mode func code) 1 (base, ex)
      (skip.getD base + 1, { ex with firstPush := none }) := by
  apply turn_next ex hrun hget
  cases skip <;> rfl

/-- A block is left by its close-block instruction, for the end of the
stretch. -/
theorem blockEnd_simulates {n : Int} {seq size size' base : Nat} {depth : Int}
    {skip : Option Nat} {ex : ExecState σ} {st : Store σ}
    (h : Simulates env mode func code size base ex st)
    (hget : code[base + size]? = some (blockEnd n seq depth skip))
    (hskip : skip.getD (base + size) + 1 = base + size') (hle : size < size') :
    Simulates env mode func code size' base ex st := by
  obtain ⟨k, rfl⟩ := Nat.exists_eq_add_of_lt hle
  show Simulates env mode func code (size + (k + 1)) base ex st
  refine h.seq (fun _ => rfl) fun ex' hstore _ hrun => ?_
  rw [← hstore] at hrun ⊢
  refine Simulates.reached (blockEnd_reaches hrun hget) ?_ rfl rfl ?_
  · omega
  · omega

/-! ## Statements -/

variable (env mode func code) in
/-- The interpreter runs a list as its evaluation does, wherever its code
stands and at whatever count it was reduced. -/
def StatementList.IsSimulated (builtin : Builtin σ) (l : StatementList) : Prop :=
  ∀ (base : Nat) (depth : Int) (ex : ExecState σ), ex.store.stopped = false →
    ex.firstPush = none → Segment code base (l.layout base depth) →
    Simulates env mode func code l.size base ex (l.eval env mode builtin ex.store)

/-- The two cases of an `if`: its test stops the script, or one of the
ways behind it is taken. -/
theorem test_simulates {t : Test} {base size target : Nat} {depth : Int} {ex : ExecState σ}
    {st : Store σ} (hrun : ex.store.stopped = false) (hfirst : ex.firstPush = none)
    (hseg : Segment code base (t.code base depth (some target))) (hle : t.size ≤ size)
    (hstop : (t.eval env mode ex.store).2.stopped = true → st = (t.eval env mode ex.store).2)
    (hnext : ∀ ex' : ExecState σ, ex'.store = (t.eval env mode ex.store).2 →
      ex'.firstPush = none → ex'.store.stopped = false →
      Reaches (execTurn env mode func code) t.size (base, ex)
        (if (t.eval env mode ex.store).1 then base + t.size else target + 1, ex') →
      Simulates env mode func code size base ex st) :
    Simulates env mode func code size base ex st := by
  obtain ⟨ex', hreach, hstore, hfirst'⟩ := t.reaches env mode func hrun hfirst hseg
  cases hrun' : ex'.store.stopped with
  | true =>
    rw [hstop (hstore ▸ hrun'), ← hstore]
    exact Simulates.stopped hreach hrun' hle
  | false => exact hnext ex' hstore hfirst' hrun' hreach

theorem ifconst_simulates {builtin : Builtin σ} (t : Test) {block : StatementList}
    (ih : block.IsSimulated env mode func code builtin) (lineNo : Int) {base : Nat} {depth : Int}
    {ex : ExecState σ} (hrun : ex.store.stopped = false) (hfirst : ex.firstPush = none)
    (hseg : Segment code base ((Statement.ifconst t block lineNo).layout base depth)) :
    Simulates env mode func code (t.size + 1 + block.size + 1) base ex
      ((Statement.ifconst t block lineNo).eval env mode builtin ex.store) := by
  have htest := hseg.left.left.left
  have hbegin := hseg.left.left.right.get
  have hblock := hseg.left.right
  have hend := hseg.right.get
  simp only [List.length_append, Test.code_length, StatementList.layout_length,
    List.length_singleton, ← Nat.add_assoc] at hbegin hblock hend
  simp only [Statement.eval]
  refine test_simulates hrun hfirst htest (by omega) (fun hstop => ?_)
    fun ex' hstore hfirst' hrun' hreach => ?_
  · simp only [hstop, Bool.not_true, Bool.false_and, Bool.false_eq_true, if_false]
  · rw [← hstore]
    cases henter : (t.eval env mode ex.store).1 with
    | false =>
      rw [henter, if_neg Bool.false_ne_true] at hreach
      rw [Bool.and_false, if_neg Bool.false_ne_true]
      exact Simulates.reached hreach (by omega) rfl hfirst' (by omega)
    | true =>
      rw [henter, if_pos rfl] at hreach
      rw [hrun', Bool.not_false, Bool.and_true, if_pos rfl]
      have hthen : Simulates env mode func code (1 + block.size) (base + t.size) ex'
          (block.eval env mode builtin ex'.store) := by
        refine block_simulates hrun' hbegin fun ex₁ hst hfirst₁ => ?_
        rw [← hst] at hrun' ⊢
        exact ih _ _ ex₁ hrun' hfirst₁ hblock
      rw [Nat.add_assoc (base + t.size)] at hend
      have hclosed : Simulates env mode func code (1 + block.size + 1) (base + t.size) ex'
          (block.eval env mode builtin ex'.store) :=
        blockEnd_simulates hthen hend rfl (Nat.lt_succ_self _)
      exact hclosed.after hreach (by omega) (by omega)

theorem ifelseconst_simulates {builtin : Builtin σ} (t : Test) {block elseblock : StatementList}
    (ih : block.IsSimulated env mode func code builtin)
    (ihelse : elseblock.IsSimulated env mode func code builtin) (lineNo : Int) {base : Nat}
    {depth : Int} {ex : ExecState σ} (hrun : ex.store.stopped = false)
    (hfirst : ex.firstPush = none)
    (hseg : Segment code base ((Statement.ifelseconst t block elseblock lineNo).layout base depth)) :
    Simulates env mode func code (t.size + 1 + block.size + 2 + elseblock.size + 1) base ex
      ((Statement.ifelseconst t block elseblock lineNo).eval env mode builtin ex.store) := by
  have hthen := hseg.left.left.left
  have htest := hthen.left.left.left
  have hbegin := hthen.left.left.right.get
  have hblock := hthen.left.right
  have hskip := hthen.right.get
  have helse := hseg.left.right
  have hend := hseg.right.get
  simp only [List.length_append, Test.code_length, StatementList.layout_length,
    List.length_singleton, ← Nat.add_assoc] at hbegin hblock hskip helse hend
  simp only [Statement.eval]
  refine test_simulates hrun hfirst htest (by omega) (fun hstop => ?_)
    fun ex' hstore hfirst' hrun' hreach => ?_
  · rw [if_pos hstop]
  · rw [← hstore]
    cases henter : (t.eval env mode ex.store).1 with
    | false =>
      rw [henter, if_neg Bool.false_ne_true] at hreach
      rw [hrun', if_neg Bool.false_ne_true, if_neg Bool.false_ne_true]
      have hclosed : Simulates env mode func code (elseblock.size + 1)
          (base + t.size + 1 + block.size + 1 + 1) ex'
          (elseblock.eval env mode builtin ex'.store) :=
        blockEnd_simulates (ihelse _ _ ex' hrun' hfirst' helse) hend rfl (Nat.lt_succ_self _)
      exact hclosed.after hreach (by omega) (by omega)
    | true =>
      rw [henter, if_pos rfl] at hreach
      rw [hrun', if_neg Bool.false_ne_true, if_pos rfl]
      have hthen' : Simulates env mode func code (1 + block.size) (base + t.size) ex'
          (block.eval env mode builtin ex'.store) := by
        refine block_simulates hrun' hbegin fun ex₁ hst hfirst₁ => ?_
        rw [← hst] at hrun' ⊢
        exact ih _ _ ex₁ hrun' hfirst₁ hblock
      rw [Nat.add_assoc (base + t.size)] at hskip
      have hclosed : Simulates env mode func code (block.size + elseblock.size + 4)
          (base + t.size) ex' (block.eval env mode builtin ex'.store) :=
        blockEnd_simulates hthen' hskip (by simp only [Option.getD_some]; omega) (by omega)
      exact hclosed.after hreach (by omega) (by omega)

mutual

/-- **The interpreter runs a statement as its evaluation does**, wherever
its code stands and at whatever count it was reduced. -/
theorem Statement.simulates {builtin : Builtin σ} (himpl : Implements func builtin)
    (s : Statement) {base : Nat} {depth : Int} {ex : ExecState σ}
    (hrun : ex.store.stopped = false) (hfirst : ex.firstPush = none)
    (hseg : Segment code base (s.layout base depth)) :
    Simulates env mode func code s.size base ex (s.eval env mode builtin ex.store) := by
  cases s with
  | function f args lineNo =>
    exact function_simulates himpl f args lineNo hrun hfirst hseg
  | assignment lhs rhs lineNo =>
    exact assignment_simulates lhs rhs lineNo hrun hfirst hseg
  | ifconst t block lineNo =>
    exact ifconst_simulates t (block.simulates himpl) lineNo hrun hfirst hseg
  | ifelseconst t block elseblock lineNo =>
    exact ifelseconst_simulates t (block.simulates himpl) (elseblock.simulates himpl) lineNo hrun
      hfirst hseg
termination_by structural s

theorem StatementList.simulates {builtin : Builtin σ} (himpl : Implements func builtin)
    (l : StatementList) : l.IsSimulated env mode func code builtin := by
  intro base depth ex hrun hfirst hseg
  cases l with
  | initial s => exact s.simulates himpl hrun hfirst hseg
  | successive l s =>
    refine Simulates.seq (l.simulates himpl base depth ex hrun hfirst hseg.left) ?_ ?_
    · intro hstop
      simp only [StatementList.eval, hstop, if_true]
    · intro ex' hstore hfirst' hrun'
      have hright := hseg.right
      rw [StatementList.layout_length] at hright
      simp only [StatementList.eval, hrun', Bool.false_eq_true, if_false]
      rw [← hstore] at hrun' ⊢
      exact s.simulates himpl hrun' hfirst' hright
termination_by structural l

end

end XplEvent.Script
