import XplEvent.Script.Correctness
import XplEvent.Script.Cut
import XplEvent.Script.LineNumbers

/-!
# The code of a script that is cut off, and what it does

`Cut.layout` is the code that the actions of a cut tree emit. The tests and
the blocks that are still open have no jump: a test that does not let its
block run fails an assertion, and the end of a block before an `else` goes
on into the `else` block. `Cut.eval` says that of the tree, and
`Cut.exec_layout` that the interpreter does it.
-/

namespace XplEvent.Script

/-! ## The code -/

def Pushed.instr (p : Pushed) (seq : Nat) (depth : Int) : Pcode :=
  match p with
  | .operand o => o.instr 0 seq depth
  | .hashref name => (Argument.hashref name).instr 0 seq depth

def pushesLayout : List Pushed → Nat → Int → List Pcode
  | [], _, _ => []
  | p :: ps, base, depth => p.instr base depth :: pushesLayout ps (base + 1) depth

def Begun.layout (b : Begun) (base : Nat) (depth : Int) : List Pcode :=
  match b with
  | .simple s => s.layout base depth
  | .test t => t.code base (depth + 1) none
  | .pushes nested ps => pushesLayout ps base (if nested then depth + 1 else depth)

/-- The code of a cut tree that stands at position `base`. -/
def Cut.layout (c : Cut) (base : Nat) (depth : Int) : List Pcode :=
  match c with
  | .front ts _ => (begun ts).layout base depth
  | .ifopen t rest lineNo =>
    t.code base (depth + 1) none ++ [blockBegin lineNo (base + t.size) (depth + 1)] ++
      rest.layout (base + t.size + 1) (depth + 1)
  | .else_ t block lineNo =>
    let first := base + t.size + 1
    t.code base (depth + 1) none ++ [blockBegin lineNo (base + t.size) (depth + 1)] ++
      block.layout first (depth + 1) ++ [blockEnd lineNo (first + block.size) (depth + 1) none]
  | .elseopen t block rest lineNo =>
    let first := base + t.size + 1
    let last := first + block.size
    t.code base (depth + 1) none ++ [blockBegin lineNo (base + t.size) (depth + 1)] ++
      block.layout first (depth + 1) ++ [blockEnd lineNo last (depth + 1) none] ++
      [blockBegin lineNo (last + 1) (depth + 1)] ++ rest.layout (last + 2) (depth + 1)
  | .statement s rest => s.layout base depth ++ rest.layout (base + s.size) depth

/-! ## The actions emit it -/

def Pushed.hasEmptyString : Pushed → Bool
  | .operand o => o.hasEmptyString
  | .hashref _ => false

theorem pushed_mem {ts : List Token} {p : Pushed} (hp : p ∈ pushed ts)
    (h : p.hasEmptyString = true) : emptyLiteral ∈ ts := by
  fun_induction pushed ts with
  | case1 name key ts ih =>
    rcases List.mem_cons.mp hp with rfl | hp
    · cases h
    · simp only [List.mem_cons, ih hp, or_true]
  | case2 name ts ih =>
    rcases List.mem_cons.mp hp with rfl | hp
    · cases h
    · simp only [List.mem_cons, ih hp, or_true]
  | case3 text ts ih | case4 text ts ih =>
    rcases List.mem_cons.mp hp with rfl | hp
    · cases h
    · exact List.mem_cons_of_mem _ (ih hp)
  | case5 wide body ts ih =>
    rcases List.mem_cons.mp hp with rfl | hp
    · exact List.mem_append_left ts (Rvalue.mem_of_isEmptyString h)
    · exact List.mem_cons_of_mem _ (ih hp)
  | case6 t ts _ _ _ _ _ ih => exact List.mem_cons_of_mem t (ih hp)
  | case7 => cases hp

theorem Pushed.reduce_eq {p : Pushed} {pc : ParseCtrl} (hline : pc.lineNo = 0)
    (h : p.hasEmptyString = false) : p.reduce pc = .ok (pc.emit [p.instr pc.pos pc.depth]) := by
  cases p with
  | operand o =>
    have heq := Operand.reduce_eq pc h
    rwa [hline] at heq
  | hashref name =>
    have heq := Argument.reduce_eq (a := .hashref name) pc rfl
    rwa [hline] at heq

theorem pushes_reduce_eq {ps : List Pushed} {pc : ParseCtrl} (hline : pc.lineNo = 0)
    (h : ∀ p ∈ ps, p.hasEmptyString = false) :
    ps.foldlM (fun pc p => p.reduce pc) pc = .ok (pc.emit (pushesLayout ps pc.pos pc.depth)) := by
  induction ps generalizing pc with
  | nil =>
    simp only [ParseCtrl.emit, pushesLayout, List.append_nil, List.length_nil, Nat.add_zero]
    rfl
  | cons p ps ih =>
    obtain ⟨hp, hps⟩ := List.forall_mem_cons.mp h
    have hnext : (pc.emit [p.instr pc.pos pc.depth]).lineNo = 0 := hline
    rw [List.foldlM_cons, Pushed.reduce_eq hline hp, ok_bind, ih hnext hps, ParseCtrl.emit_emit]
    rfl

/-- The actions have run, and have emitted the code. -/
def Emitted (r : Except Fault ParseCtrl) (pc : ParseCtrl) (code : List Pcode) : Prop :=
  ∃ pc', r = .ok pc' ∧ pc'.pcodeHeader.code = pc.pcodeHeader.code ++ code

theorem begun_reduce_eq {ts : List Token} (pc : ParseCtrl) (ha : pc.Aligned)
    (h : emptyLiteral ∉ ts) :
    Emitted ((begun ts).reduce pc) pc ((begun ts).layout pc.pos pc.depth) := by
  unfold begun
  split
  · rename_i s us hread
    have hs : s.hasEmptyString = false := by
      refine Bool.eq_false_iff.mpr fun hempty => ?_
      have hmem : emptyLiteral ∈ ts ++ [.semi] := by
        rw [(read_sound 1).1 hread]
        exact List.mem_append_left us (s.mem_of_hasEmptyString hempty)
      rcases List.mem_append.mp hmem with hmem | hmem
      · exact h hmem
      · cases List.mem_singleton.mp hmem
    exact ⟨_, s.reduce_eq_layout pc ha hs, rfl⟩
  split
  · rename_i us
    split
    · rename_i t us' hread
      have ht : t.hasEmptyString = false := by
        refine Bool.eq_false_iff.mpr fun hempty => h (List.mem_cons_of_mem _ ?_)
        refine List.mem_of_mem_drop (i := 1) ?_
        rw [readTest_sound hread]
        exact List.mem_append_left us' (Test.mem_of_hasEmptyString hempty)
      exact ⟨_, Test.reduce_eq (pc.nest 1) ht, rfl⟩
    · refine ⟨_, pushes_reduce_eq rfl fun p hp => ?_, rfl⟩
      exact Bool.eq_false_iff.mpr fun hempty => h (List.mem_cons_of_mem _ (pushed_mem hp hempty))
  · refine ⟨_, pushes_reduce_eq rfl fun p hp => ?_, rfl⟩
    exact Bool.eq_false_iff.mpr fun hempty => h (pushed_mem hp hempty)

theorem ParseCtrl.emit_code (pc : ParseCtrl) (l : List Pcode) :
    (pc.emit l).pcodeHeader.code = pc.pcodeHeader.code ++ l := rfl

/-- Behind the opening brace of an `if`. -/
def ParseCtrl.opened (pc : ParseCtrl) (t : Test) (n : Int) : ParseCtrl :=
  ((pc.nest 1).atLine n).emit (t.code pc.pos (pc.depth + 1) none ++
    [blockBegin n (pc.pos + t.size) (pc.depth + 1)])

/-- Behind the closing brace of an `if`, with its block in between. -/
def ParseCtrl.closed (pc : ParseCtrl) (block : StatementList) (n : Int) : ParseCtrl :=
  (pc.atLine n).emit (block.layout pc.pos pc.depth ++
    [blockEnd n (pc.pos + block.size) pc.depth none])

theorem reduce_opened {t : Test} (pc : ParseCtrl) (n : Int) (ht : t.hasEmptyString = false) :
    ∃ pc', t.reduce (pc.nest 1) = .ok pc' ∧ blockstart (pc'.atLine n) = pc.opened t n := by
  refine ⟨_, Test.reduce_eq _ ht, ?_⟩
  simp only [ParseCtrl.atLine_emit, ParseCtrl.atLine_atLine, blockstart_eq, ParseCtrl.emit_emit,
    ParseCtrl.opened, ParseCtrl.emit_pos, ParseCtrl.emit_lineNo, ParseCtrl.emit_depth,
    ParseCtrl.atLine_pos, ParseCtrl.atLine_lineNo, ParseCtrl.atLine_depth, ParseCtrl.nest_pos,
    ParseCtrl.nest_depth, Test.code_length]

theorem reduce_closed {block : StatementList} {pc : ParseCtrl} (n : Int) (ha : pc.Aligned)
    (hblock : block.hasEmptyString = false) :
    ∃ pc', block.reduce pc = .ok pc' ∧ blockend (pc'.atLine n) = pc.closed block n := by
  refine ⟨_, block.reduce_eq_layout pc ha hblock, ?_⟩
  simp only [ParseCtrl.atLine_emit, ParseCtrl.atLine_atLine, blockend_eq, ParseCtrl.emit_emit,
    ParseCtrl.closed, ParseCtrl.emit_pos, ParseCtrl.emit_lineNo, ParseCtrl.emit_depth,
    ParseCtrl.atLine_pos, ParseCtrl.atLine_lineNo, ParseCtrl.atLine_depth,
    StatementList.layout_length]

theorem ParseCtrl.opened_pos (pc : ParseCtrl) (t : Test) (n : Int) :
    (pc.opened t n).pos = pc.pos + t.size + 1 := by
  simp only [opened, emit_pos, atLine_pos, nest_pos, List.length_append, Test.code_length,
    List.length_singleton, Nat.add_assoc]

theorem ParseCtrl.closed_pos (pc : ParseCtrl) (block : StatementList) (n : Int) :
    (pc.closed block n).pos = pc.pos + block.size + 1 := by
  simp only [closed, emit_pos, atLine_pos, List.length_append, StatementList.layout_length,
    List.length_singleton, Nat.add_assoc]

theorem ParseCtrl.opened_code (pc : ParseCtrl) (t : Test) (n : Int) :
    (pc.opened t n).pcodeHeader.code = pc.pcodeHeader.code ++
      (t.code pc.pos (pc.depth + 1) none ++ [blockBegin n (pc.pos + t.size) (pc.depth + 1)]) := rfl

theorem ParseCtrl.closed_code (pc : ParseCtrl) (block : StatementList) (n : Int) :
    (pc.closed block n).pcodeHeader.code = pc.pcodeHeader.code ++
      (block.layout pc.pos pc.depth ++ [blockEnd n (pc.pos + block.size) pc.depth none]) := rfl

theorem ParseCtrl.opened_depth (pc : ParseCtrl) (t : Test) (n : Int) :
    (pc.opened t n).depth = pc.depth + 1 := rfl

theorem ParseCtrl.Aligned.opened {pc : ParseCtrl} (h : pc.Aligned) (t : Test) (n : Int) :
    (pc.opened t n).Aligned := ((h.nest 1).atLine n).emit _

theorem ParseCtrl.Aligned.closed {pc : ParseCtrl} (h : pc.Aligned) (block : StatementList) (n : Int) :
    (pc.closed block n).Aligned := (h.atLine n).emit _

/-- **The actions of a cut tree emit its layout.** -/
theorem Cut.reduce_eq_layout (c : Cut) (pc : ParseCtrl) (ha : pc.Aligned)
    (h : emptyLiteral ∉ c.yield) : Emitted (c.reduce pc) pc (c.layout pc.pos pc.depth) := by
  have htest : ∀ t : Test, emptyLiteral ∉ t.yield → t.hasEmptyString = false :=
    fun t ht => Bool.eq_false_iff.mpr fun hempty => ht (Test.mem_of_hasEmptyString hempty)
  have hlist : ∀ l : StatementList, emptyLiteral ∉ l.yield → l.hasEmptyString = false :=
    fun l hl => Bool.eq_false_iff.mpr fun hempty => hl (l.mem_of_hasEmptyString hempty)
  induction c generalizing pc with
  | front ts hts => exact begun_reduce_eq pc ha h
  | ifopen t rest n ih =>
    simp only [Cut.yield, List.mem_append, not_or] at h
    obtain ⟨⟨⟨-, ht⟩, -⟩, hrest⟩ := h
    obtain ⟨pc₁, hreduce, hopened⟩ := reduce_opened pc n (htest t ht)
    obtain ⟨pc', hreduce', hcode⟩ := ih (pc.opened t n) (ha.opened t n) hrest
    refine ⟨pc', ?_, ?_⟩
    · rw [Cut.reduce, hreduce, ok_bind, hopened, hreduce']
    · simp only [hcode, ParseCtrl.opened_code, ParseCtrl.opened_pos, ParseCtrl.opened_depth,
        Cut.layout, List.append_assoc]
  | else_ t block n =>
    simp only [Cut.yield, List.mem_append, not_or] at h
    obtain ⟨⟨⟨⟨-, ht⟩, -⟩, hb⟩, -⟩ := h
    obtain ⟨pc₁, hreduce, hopened⟩ := reduce_opened pc n (htest t ht)
    obtain ⟨pc₂, hreduce', hclosed⟩ := reduce_closed n (ha.opened t n) (hlist block hb)
    refine ⟨(pc.opened t n).closed block n, ?_, ?_⟩
    · simp only [Cut.reduce, hreduce, ok_bind, hopened, hreduce', hclosed]
      rfl
    · simp only [ParseCtrl.closed_code, ParseCtrl.opened_code, ParseCtrl.opened_pos,
        ParseCtrl.opened_depth, Cut.layout, List.append_assoc]
  | elseopen t block rest n ih =>
    simp only [Cut.yield, List.mem_append, not_or] at h
    obtain ⟨⟨⟨⟨⟨-, ht⟩, -⟩, hb⟩, -⟩, hrest⟩ := h
    obtain ⟨pc₁, hreduce, hopened⟩ := reduce_opened pc n (htest t ht)
    obtain ⟨pc₂, hreduce', hclosed⟩ := reduce_closed n (ha.opened t n) (hlist block hb)
    obtain ⟨pc', hreduce'', hcode⟩ := ih (blockstart ((pc.opened t n).closed block n))
      (((ha.opened t n).closed block n).emit _) hrest
    refine ⟨pc', ?_, ?_⟩
    · simp only [Cut.reduce, hreduce, ok_bind, hopened, hreduce', hclosed, hreduce'']
    · have hline : ((pc.opened t n).closed block n).lineNo = n := rfl
      have hdepth : ((pc.opened t n).closed block n).depth = pc.depth + 1 := rfl
      simp only [hcode, blockstart_eq, hline, hdepth, ParseCtrl.emit_code, ParseCtrl.emit_pos,
        ParseCtrl.emit_depth, ParseCtrl.closed_code, ParseCtrl.closed_pos, ParseCtrl.opened_code,
        ParseCtrl.opened_pos, ParseCtrl.opened_depth, List.length_singleton, Cut.layout,
        List.append_assoc]
  | statement s rest ih =>
    simp only [Cut.yield, List.mem_append, not_or] at h
    have hs : s.hasEmptyString = false :=
      Bool.eq_false_iff.mpr fun hempty => h.1 (s.mem_of_hasEmptyString hempty)
    obtain ⟨pc', hreduce, hcode⟩ := ih _ ((ha.atLine s.lineNo).emit (s.layout pc.pos pc.depth)) h.2
    refine ⟨pc', ?_, ?_⟩
    · rw [Cut.reduce, s.reduce_eq_layout pc ha hs, ok_bind, hreduce]
    · simp only [hcode, ParseCtrl.emit_code, ParseCtrl.emit_pos, ParseCtrl.emit_depth,
        ParseCtrl.atLine_pos, ParseCtrl.atLine_depth, Statement.layout_length, Cut.layout,
        ← List.append_assoc]
      rfl

/-! ## What it does -/

section

variable {D σ : Type} (env : Env D σ) (mode : Mode) (builtin : Builtin σ)

/-- A test that has no jump yet: what follows is run, or an assertion fails. -/
def Test.evalOpen (t : Test) (st : Store σ) (rest : Store σ → Store σ) : Store σ :=
  if (t.eval env mode st).1 then
    if (t.eval env mode st).2.stopped then (t.eval env mode st).2 else rest (t.eval env mode st).2
  else { st with fault := some .assertion }

def Begun.eval (b : Begun) (st : Store σ) : Store σ :=
  match b with
  | .simple s => s.eval env mode builtin st
  | .test t => t.evalOpen env mode st id
  | .pushes _ _ => st

/-- Behind a block that has been run comes what there is of the `else`
block: there is no jump over it. -/
def Cut.eval (c : Cut) (st : Store σ) : Store σ :=
  match c with
  | .front ts _ => (begun ts).eval env mode builtin st
  | .ifopen t rest _ => t.evalOpen env mode st rest.eval
  | .else_ t block _ => t.evalOpen env mode st (block.eval env mode builtin)
  | .elseopen t block rest _ => t.evalOpen env mode st fun st =>
    let st := block.eval env mode builtin st
    if st.stopped then st else rest.eval st
  | .statement s rest =>
    let st := s.eval env mode builtin st
    if st.stopped then st else rest.eval st

variable (P : BuiltinFunction → List Arg → Store σ → Prop)

/-- A test that has no jump yet lets its block run, and then `Q` holds. -/
def Test.Passes (t : Test) (st : Store σ) (Q : Store σ → Prop) : Prop :=
  (t.eval env mode st).1 = true ∧ ((t.eval env mode st).2.stopped = false → Q (t.eval env mode st).2)

def Begun.GoesOn (b : Begun) (st : Store σ) : Prop :=
  match b with
  | .simple s => s.EveryCall env mode builtin P st
  | .test t => t.Passes env mode st fun _ => True
  | .pushes _ _ => True

/-- Every call that is reached satisfies `P`, and every test that is
reached and has no jump yet lets its block run. -/
def Cut.GoesOn (c : Cut) (st : Store σ) : Prop :=
  match c with
  | .front ts _ => (begun ts).GoesOn env mode builtin P st
  | .ifopen t rest _ => t.Passes env mode st rest.GoesOn
  | .else_ t block _ => t.Passes env mode st (block.EveryCall env mode builtin P)
  | .elseopen t block rest _ => t.Passes env mode st fun st =>
    block.EveryCall env mode builtin P st ∧
      ((block.eval env mode builtin st).stopped = false → rest.GoesOn (block.eval env mode builtin st))
  | .statement s rest =>
    s.EveryCall env mode builtin P st ∧
      ((s.eval env mode builtin st).stopped = false → rest.GoesOn (s.eval env mode builtin st))

end

/-! ## The interpreter does it -/

def Begun.size : Begun → Nat
  | .simple s => s.size
  | .test t => t.size
  | .pushes _ ps => ps.length

def Cut.size : Cut → Nat
  | .front ts _ => (begun ts).size
  | .ifopen t rest _ => t.size + (1 + rest.size)
  | .else_ t block _ => t.size + (1 + block.size + 1)
  | .elseopen t block rest _ => t.size + (1 + block.size + 1 + 1 + rest.size)
  | .statement s rest => s.size + rest.size

theorem pushesLayout_length (ps : List Pushed) (base : Nat) (depth : Int) :
    (pushesLayout ps base depth).length = ps.length := by
  induction ps generalizing base with
  | nil => rfl
  | cons p ps ih => rw [pushesLayout, List.length_cons, ih, List.length_cons]

theorem Begun.layout_length (b : Begun) (base : Nat) (depth : Int) :
    (b.layout base depth).length = b.size := by
  cases b with
  | simple s => exact s.layout_length base depth
  | test t => exact t.code_length base (depth + 1) none
  | pushes nested ps => exact pushesLayout_length ps base _

theorem Cut.layout_length (c : Cut) (base : Nat) (depth : Int) :
    (c.layout base depth).length = c.size := by
  induction c generalizing base depth with
  | front ts h => exact (begun ts).layout_length base depth
  | ifopen t rest n ih =>
    simp only [layout, size, List.length_append, Test.code_length, List.length_singleton, ih]
    omega
  | else_ t block n =>
    simp only [layout, size, List.length_append, Test.code_length, List.length_singleton,
      StatementList.layout_length]
    omega
  | elseopen t block rest n ih =>
    simp only [layout, size, List.length_append, Test.code_length, List.length_singleton,
      StatementList.layout_length, ih]
    omega
  | statement s rest ih =>
    simp only [layout, size, List.length_append, Statement.layout_length, ih]

section

open Lib (Reaches Segment)

variable {D σ : Type} {env : Env D σ} {mode : Mode} {func : Func σ} {code : List Pcode}

variable (env mode func code) in
/-- The interpreter, started at position `base`, gets to the store `st`
within `size` turns, and to the end of the stretch if it is let. -/
def Ends (size base : Nat) (ex : ExecState σ) (st : Store σ) : Prop :=
  ∃ n ≤ size, ∃ i ex', Reaches (execTurn env mode func code) n (base, ex) (i, ex') ∧
    ex'.store = st ∧ (st.stopped = false → i = base + size)

variable {size size' base : Nat} {ex : ExecState σ} {st st' : Store σ}

theorem Simulates.ends (h : Simulates env mode func code size base ex st) :
    Ends env mode func code size base ex st := by
  obtain ⟨n, hn, i, ex', hreach, hst, hrest⟩ := h
  exact ⟨n, hn, i, ex', hreach, hst, fun hrun => (hrest hrun).1⟩

/-- A stretch that is run to its end, and then another one. -/
theorem Simulates.before (h : Simulates env mode func code size base ex st)
    (hstop : st.stopped = true → st' = st)
    (hnext : ∀ ex', ex'.store = st → ex'.firstPush = none → st.stopped = false →
      Ends env mode func code size' (base + size) ex' st') :
    Ends env mode func code (size + size') base ex st' := by
  cases hrun : st.stopped with
  | true =>
    rw [hstop hrun]
    exact (h.stop hrun (Nat.le_add_right _ _)).ends
  | false =>
    obtain ⟨n, hn, i, ex', hreach, hst, hrest⟩ := h
    obtain ⟨rfl, hfirst⟩ := hrest hrun
    obtain ⟨m, hm, j, ex'', hreach', hst', hrest'⟩ := hnext ex' hst hfirst hrun
    refine ⟨n + m, by omega, j, ex'', hreach.trans hreach', hst', fun hrun' => ?_⟩
    have hj := hrest' hrun'
    omega

/-- A test that has no jump yet, and what follows it. -/
theorem evalOpen_ends {t : Test} {depth : Int} {rest : Store σ → Store σ}
    (hrun : ex.store.stopped = false) (hfirst : ex.firstPush = none)
    (hseg : Segment code base (t.code base depth none))
    (hnext : ∀ ex' : ExecState σ, ex'.firstPush = none → ex'.store.stopped = false →
      Ends env mode func code size (base + t.size) ex' (rest ex'.store)) :
    Ends env mode func code (t.size + size) base ex (t.evalOpen env mode ex.store rest) := by
  obtain ⟨i, ex', hreach, hdone⟩ := t.reaches_open env mode func hrun hfirst hseg
  unfold Test.evalOpen
  split
  · rename_i henter
    rw [if_pos henter] at hdone
    obtain ⟨rfl, hstore, hfirst'⟩ := hdone
    rw [← hstore]
    cases hrun' : ex'.store.stopped with
    | true =>
      refine ⟨t.size, Nat.le_add_right _ _, _, ex', hreach, rfl, fun hno => ?_⟩
      rw [if_pos rfl, hrun'] at hno
      cases hno
    | false =>
      obtain ⟨m, hm, j, ex'', hreach', hst, hrest⟩ := hnext ex' hfirst' hrun'
      refine ⟨t.size + m, by omega, j, ex'', hreach.trans hreach', hst, fun hno => ?_⟩
      have hj := hrest hno
      omega
  · rename_i henter
    rw [if_neg henter] at hdone
    refine ⟨t.size, Nat.le_add_right _ _, i, ex', hreach, hdone, fun hno => ?_⟩
    simp only [Store.stopped, Option.isSome_some, Bool.or_true, Bool.true_eq_false] at hno

/-- Nothing to do. -/
theorem Ends.refl (ex : ExecState σ) : Ends env mode func code 0 base ex ex.store :=
  ⟨0, Nat.le_refl 0, base, ex, Reaches.refl _, rfl, fun _ => rfl⟩

theorem pushesLayout_opcode (ps : List Pushed) (base : Nat) (depth : Int) :
    ∀ p ∈ pushesLayout ps base depth, p.opcode = .OP_PUSH := by
  induction ps generalizing base with
  | nil => exact fun p hp => absurd hp List.not_mem_nil
  | cons p ps ih =>
    refine List.forall_mem_cons.mpr ⟨?_, ih (base + 1)⟩
    cases p with
    | operand o => exact o.instr_opcode 0 base depth
    | hashref name => rfl

/-- A row of pushes at the end of the code is pushed, and that is all. -/
theorem pushes_ends {ps : List Pushed} {depth : Int} (hrun : ex.store.stopped = false)
    (hfirst : ex.firstPush = none) (hseg : Segment code base (pushesLayout ps base depth)) :
    Ends env mode func code ps.length base ex ex.store := by
  cases ps with
  | nil => exact .refl ex
  | cons p ps =>
    have hreach : Reaches (execTurn env mode func code) _ (base, ex) _ :=
      pushes_reach (pushesLayout_opcode (p :: ps) base depth) (List.cons_ne_nil _ _) hrun hfirst hseg
    rw [pushesLayout_length] at hreach
    exact ⟨_, Nat.le_refl _, _, _, hreach, rfl, fun _ => rfl⟩

theorem Begun.ends {builtin : Builtin σ} (himpl : Implements func builtin) (b : Begun) {depth : Int}
    (hrun : ex.store.stopped = false) (hfirst : ex.firstPush = none)
    (hseg : Segment code base (b.layout base depth)) :
    Ends env mode func code b.size base ex (b.eval env mode builtin ex.store) := by
  cases b with
  | simple s => exact (s.simulates himpl hrun hfirst hseg).ends
  | test t =>
    have hends : Ends env mode func code (t.size + 0) base ex (t.evalOpen env mode ex.store id) :=
      evalOpen_ends hrun hfirst hseg fun ex' _ _ => .refl ex'
    exact hends
  | pushes nested ps => exact pushes_ends hrun hfirst hseg

/-- A block that is not closed. -/
theorem block_ends {n : Int} {seq : Nat} {depth : Int} (hrun : ex.store.stopped = false)
    (hget : code[base]? = some (blockBegin n seq depth))
    (hblock : ∀ ex' : ExecState σ, ex'.store.stopped = false → ex'.firstPush = none →
      ex'.store = ex.store → Ends env mode func code size (base + 1) ex' st) :
    Ends env mode func code (1 + size) base ex st := by
  refine (blockBegin_simulates hrun hget).before (fun hstop => ?_)
    fun ex' hstore hfirst hrun' => hblock ex' (hstore ▸ hrun') hfirst hstore
  rw [hrun] at hstop
  cases hstop

/-- A block that is closed, and has no jump yet. -/
theorem closed_simulates {builtin : Builtin σ} (himpl : Implements func builtin)
    (block : StatementList) {n : Int} {seq seq' : Nat} {depth : Int}
    (hrun : ex.store.stopped = false) (hbegin : code[base]? = some (blockBegin n seq depth))
    (hblock : Segment code (base + 1) (block.layout (base + 1) depth))
    (hend : code[base + (1 + block.size)]? = some (blockEnd n seq' depth none)) :
    Simulates env mode func code (1 + block.size + 1) base ex
      (block.eval env mode builtin ex.store) := by
  have hinside : Simulates env mode func code (1 + block.size) base ex
      (block.eval env mode builtin ex.store) := by
    refine block_simulates hrun hbegin fun ex' hst hfirst => ?_
    rw [← hst] at hrun ⊢
    exact block.simulates himpl _ _ ex' hrun hfirst hblock
  exact blockEnd_simulates hinside hend rfl (Nat.lt_succ_self _)

/-- **The interpreter runs the code of a cut tree as its evaluation does**,
to the end. -/
theorem Cut.ends {builtin : Builtin σ} (himpl : Implements func builtin) (c : Cut) {depth : Int}
    (hrun : ex.store.stopped = false) (hfirst : ex.firstPush = none)
    (hseg : Segment code base (c.layout base depth)) :
    Ends env mode func code c.size base ex (c.eval env mode builtin ex.store) := by
  induction c generalizing base depth ex with
  | front ts h => exact (begun ts).ends himpl hrun hfirst hseg
  | ifopen t rest n ih =>
    have htest := hseg.left.left
    have hbegin := hseg.left.right.get
    have hrest := hseg.right
    simp only [List.length_append, Test.code_length, List.length_singleton, ← Nat.add_assoc]
      at hbegin hrest
    refine evalOpen_ends hrun hfirst htest fun ex₁ _ hrun₁ => ?_
    refine block_ends hrun₁ hbegin fun ex₂ hrun₂ hfirst₂ hst => ?_
    rw [← hst]
    exact ih hrun₂ hfirst₂ hrest
  | else_ t block n =>
    have htest := hseg.left.left.left
    have hbegin := hseg.left.left.right.get
    have hblock := hseg.left.right
    have hend := hseg.right.get
    simp only [List.length_append, Test.code_length, StatementList.layout_length,
      List.length_singleton, ← Nat.add_assoc] at hbegin hblock hend
    rw [Nat.add_assoc (base + t.size)] at hend
    refine evalOpen_ends hrun hfirst htest fun ex₁ _ hrun₁ => ?_
    exact (closed_simulates himpl block hrun₁ hbegin hblock hend).ends
  | elseopen t block rest n ih =>
    have hclosed := hseg.left.left
    have htest := hclosed.left.left.left
    have hbegin := hclosed.left.left.right.get
    have hblock := hclosed.left.right
    have hend := hclosed.right.get
    have hbegin' := hseg.left.right.get
    have hrest := hseg.right
    simp only [List.length_append, Test.code_length, StatementList.layout_length,
      List.length_singleton, ← Nat.add_assoc] at hbegin hblock hend hbegin' hrest
    rw [Nat.add_assoc (base + t.size)] at hend
    refine evalOpen_ends hrun hfirst htest fun ex₁ _ hrun₁ => ?_
    rw [Nat.add_assoc]
    refine (closed_simulates himpl block hrun₁ hbegin hblock hend).before (fun hstop => ?_)
      fun ex₂ hst _ hrun₂ => ?_
    · simp only [hstop, if_true]
    · simp only [hrun₂, Bool.false_eq_true, if_false]
      have hpos : base + t.size + (1 + block.size + 1) = base + t.size + 1 + block.size + 1 := by
        omega
      rw [← hst] at hrun₂ ⊢
      rw [hpos]
      refine block_ends hrun₂ hbegin' fun ex₃ hrun₃ hfirst₃ hst' => ?_
      rw [← hst']
      exact ih hrun₃ hfirst₃ hrest
  | statement s rest ih =>
    have hrest := hseg.right
    rw [Statement.layout_length] at hrest
    refine (s.simulates himpl hrun hfirst hseg.left).before (fun hstop => ?_)
      fun ex₁ hst hfirst₁ hrun₁ => ?_
    · simp only [Cut.eval, hstop, if_true]
    · simp only [Cut.eval, hrun₁, Bool.false_eq_true, if_false]
      rw [← hst] at hrun₁ ⊢
      exact ih hrun₁ hfirst₁ hrest

/-- **A cut script, from the first instruction on.** One that has emitted
nothing fails an assertion. -/
theorem Cut.exec_layout {builtin : Builtin σ} (himpl : Implements func builtin) (c : Cut) {depth : Int}
    (hsize : c.size ≠ 0) (hrun : st.stopped = false) {fuel : Nat} (hfuel : c.size < fuel) :
    ParserExecPcode env mode func (c.layout 0 depth) fuel st =
      some (if (c.eval env mode builtin st).failReason.isSome then .FAIL else .PASS,
        c.eval env mode builtin st) := by
  have hends : Ends env mode func (c.layout 0 depth) c.size 0 ⟨st, none, 0⟩
      (c.eval env mode builtin st) := c.ends himpl hrun rfl (Lib.Segment.whole (c.layout 0 depth))
  obtain ⟨n, hn, i, ex, hreach, hstore, hrest⟩ := hends
  have hdone : execTurn env mode func (c.layout 0 depth) (i, ex) = .done ex := by
    cases hstop : ex.store.stopped with
    | true => exact turn_stopped hstop
    | false =>
      have hi := hrest (hstore ▸ hstop)
      have hget : (c.layout 0 depth)[i]? = none := by
        rw [List.getElem?_eq_none_iff, Cut.layout_length]
        omega
      simp only [execTurn, hstop, Bool.false_eq_true, if_false, hget]
  have hne : (c.layout 0 depth).isEmpty = false := by
    have hlen := c.layout_length 0 depth
    cases hcode : c.layout 0 depth with
    | nil => exact absurd (by rw [← hlen, hcode, List.length_nil]) hsize
    | cons p ps => rfl
  rw [ParserExecPcode, hne, if_neg Bool.false_ne_true, hreach.result hdone (by omega)]
  simp only [Option.map_some, hstore]

end

/-! ## Which cut scripts end the process -/

section

variable {D σ : Type} {env : Env D σ} {mode : Mode} {builtin : Builtin σ}
  {P : BuiltinFunction → List Arg → Store σ → Prop}

theorem Test.evalOpen_fault_iff (t : Test) {st : Store σ} (hrun : st.stopped = false)
    {rest : Store σ → Store σ} {Q : Store σ → Prop}
    (hrest : ∀ st, st.stopped = false → ((rest st).fault = none ↔ Q st)) :
    (t.evalOpen env mode st rest).fault = none ↔ t.Passes env mode st Q := by
  have hfault : (t.eval env mode st).2.fault = none := by
    rw [(t.eval_quiet st).fault, st.fault_of_running hrun]
  unfold Test.evalOpen Test.Passes
  cases (t.eval env mode st).1 with
  | false => exact iff_of_false (fun h => by cases h) fun h => by cases h.1
  | true =>
    rw [if_pos rfl, eq_self, true_and]
    cases hstop : (t.eval env mode st).2.stopped with
    | true => exact iff_of_true hfault fun h => by cases h
    | false =>
      rw [if_neg Bool.false_ne_true, forall_prop_of_true rfl]
      exact hrest _ hstop

/-- **A cut script keeps the process alive exactly if** every call it
reaches does, and every test without a jump lets its block run. -/
theorem Cut.goesOn_iff (h : Watched env mode builtin fun st => st.fault = none)
    (hP : ∀ f args st, st.stopped = false → st.fault = none →
      ((call builtin f args st).fault = none ↔ P f args st)) (c : Cut) {st : Store σ}
    (hrun : st.stopped = false) :
    (c.eval env mode builtin st).fault = none ↔ c.GoesOn env mode builtin P st := by
  have hstatement : ∀ (s : Statement) (st : Store σ), st.stopped = false →
      ((s.eval env mode builtin st).fault = none ↔ s.EveryCall env mode builtin P st) :=
    fun s st hrun => s.everyCall_iff h hP hrun (st.fault_of_running hrun)
  have hlist : ∀ (l : StatementList) (st : Store σ), st.stopped = false →
      ((l.eval env mode builtin st).fault = none ↔ l.EveryCall env mode builtin P st) :=
    fun l st hrun => l.everyCall_iff h hP hrun (st.fault_of_running hrun)
  have hthen : ∀ (st : Store σ) (rest : Store σ → Store σ) (Q : Prop) (Q' : Store σ → Prop),
      (st.fault = none ↔ Q) →
      (st.stopped = false → ((rest st).fault = none ↔ Q' st)) →
      ((if st.stopped then st else rest st).fault = none ↔ Q ∧ (st.stopped = false → Q' st)) := by
    intro st rest Q Q' hfirst hrest
    cases hstop : st.stopped with
    | true => simp only [if_true, hfirst, Bool.true_eq_false, false_implies, and_true]
    | false =>
      have hQ : Q := hfirst.mp (st.fault_of_running hstop)
      rw [if_neg Bool.false_ne_true, hrest hstop]
      simp only [hQ, true_and, forall_const]
  induction c generalizing st with
  | front ts hts =>
    simp only [Cut.eval, Cut.GoesOn]
    cases begun ts with
    | simple s => exact hstatement s st hrun
    | test t =>
      exact t.evalOpen_fault_iff hrun fun st hrun =>
        iff_of_true (st.fault_of_running hrun) trivial
    | pushes nested ps => exact iff_of_true (st.fault_of_running hrun) trivial
  | ifopen t rest n ih => exact t.evalOpen_fault_iff hrun fun st hrun => ih hrun
  | else_ t block n => exact t.evalOpen_fault_iff hrun fun st hrun => hlist block st hrun
  | elseopen t block rest n ih =>
    refine t.evalOpen_fault_iff hrun fun st hrun => ?_
    exact hthen _ (rest.eval env mode builtin) _ (rest.GoesOn env mode builtin P)
      (hlist block st hrun) fun hrun => ih hrun
  | statement s rest ih =>
    exact hthen _ (rest.eval env mode builtin) _ (rest.GoesOn env mode builtin P)
      (hstatement s st hrun) fun hrun => ih hrun

end

/-! ## Lines -/

section

variable {D σ : Type} {env : Env D σ} {mode : Mode} {builtin : Builtin σ}

theorem Cut.size_unlined (c : Cut) : c.unlined.size = c.size := by
  induction c with
  | front ts h => rfl
  | ifopen t rest n ih => simp only [unlined, size, t.size_unlined, ih]
  | else_ t block n => simp only [unlined, size, t.size_unlined, block.size_unlined]
  | elseopen t block rest n ih =>
    simp only [unlined, size, t.size_unlined, block.size_unlined, ih]
  | statement s rest ih => simp only [unlined, size, s.size_unlined, ih]

theorem Test.evalOpen_unlined (t : Test) (st : Store σ) {rest rest' : Store σ → Store σ}
    (h : ∀ st, (rest st).unlined = (rest' st).unlined) :
    (t.evalOpen env mode st rest).unlined = (t.unlined.evalOpen env mode st rest').unlined := by
  have htest := t.eval_unlined env mode st
  unfold Test.evalOpen
  rw [← htest.1]
  split
  · exact Store.unlined_next htest.2 (h _)
  · rfl

/-- The lines of a cut tree do not matter either. -/
theorem Cut.eval_unlined (c : Cut) (st : Store σ) :
    (c.eval env mode builtin st).unlined = (c.unlined.eval env mode builtin st).unlined := by
  induction c generalizing st with
  | front ts h => rfl
  | ifopen t rest n ih => exact t.evalOpen_unlined st ih
  | else_ t block n => exact t.evalOpen_unlined st block.eval_unlined
  | elseopen t block rest n ih =>
    exact t.evalOpen_unlined st fun st => Store.unlined_next (block.eval_unlined st) (ih _)
  | statement s rest ih => exact Store.unlined_next (s.eval_unlined st) (ih _)

end

end XplEvent.Script
