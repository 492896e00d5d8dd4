import XplEvent.Script.Correctness

/-!
# Where jumps lead, and why execution ends

`ParserSetJumps` walks back from a close block to the test in front of
it, over whatever the block holds. On the code of a program of the
grammar it always comes to one (`jumpCalls` are the calls a parse makes),
and what it installs is a forward jump: `SoundJumps` says that every test
has one and that every jump leads to a later block edge of its own
control statement.

The interpreter follows these pointers and keeps no count. Since they
all lead forward, each of its turns is at a later instruction than the
one before (`execTurn_forward`), whatever the tests, the hashes and the
built-in functions answer. So it comes to no instruction twice, and to an
end.
-/

namespace XplEvent.Script

/-! ## The jumps of a layout -/

/-- A test has a jump, and a jump leads to a later block edge of the same
nesting count. -/
def Pcode.Leads (code : List Pcode) (p : Pcode) : Prop :=
  (p.isTest = true → p.skip ≠ none) ∧
    ∀ target, p.skip = some target → ∃ q ∈ code, q.seq = target ∧ q.opcode = .OP_BLOCK ∧
      p.seq < q.seq ∧ q.ctrlStructRefCount = p.ctrlStructRefCount

theorem Pcode.Leads.mono {code code' : List Pcode} {p : Pcode} (h : p.Leads code)
    (hsub : code ⊆ code') : p.Leads code' := by
  refine ⟨h.1, fun target htarget => ?_⟩
  obtain ⟨q, hq, hrest⟩ := h.2 target htarget
  exact ⟨q, hsub hq, hrest⟩

/-- An instruction that neither tests nor jumps. -/
theorem Pcode.Leads.plain {code : List Pcode} {p : Pcode} (htest : p.isTest = false)
    (hskip : p.skip = none) : p.Leads code := by
  constructor
  · intro h
    rw [htest] at h
    cases h
  · intro target h
    rw [hskip] at h
    cases h

/-- An instruction that jumps to a given one. -/
theorem Pcode.Leads.jump {code : List Pcode} {p q : Pcode} (hskip : p.skip = some q.seq)
    (hq : q ∈ code) (hblock : q.opcode = .OP_BLOCK) (hlt : p.seq < q.seq)
    (hdepth : q.ctrlStructRefCount = p.ctrlStructRefCount) : p.Leads code := by
  constructor
  · intro _ h
    rw [hskip] at h
    cases h
  · intro target h
    rw [hskip] at h
    exact ⟨q, hq, Option.some.inj h, hblock, hlt, hdepth⟩

theorem Operand.instr_leads (o : Operand) (code : List Pcode) (lineNo : Int) (seq : Nat)
    (depth : Int) : (o.instr lineNo seq depth).Leads code := by
  cases o <;> exact .plain rfl rfl

theorem ArgumentList.layout_leads (l : ArgumentList) (code : List Pcode) (lineNo : Int)
    (base : Nat) (depth : Int) : ∀ p ∈ l.layout lineNo base depth, p.Leads code := by
  have harg : ∀ (a : Argument) (seq : Nat), (a.instr lineNo seq depth).Leads code := by
    intro a seq
    cases a <;> exact .plain rfl rfl
  induction l with
  | initial a =>
    intro p hp
    rw [List.mem_singleton.mp hp]
    exact harg a base
  | successive l a ih =>
    intro p hp
    rcases List.mem_append.mp hp with hp | hp
    · exact ih p hp
    · rw [List.mem_singleton.mp hp]
      exact harg a _

theorem Test.pushes_leads (t : Test) (code : List Pcode) (base : Nat) (depth : Int) :
    ∀ p ∈ t.pushes base depth, p.Leads code := by
  intro p hp
  cases t with
  | compare l op r lineNo =>
    rcases List.mem_cons.mp hp with rfl | hp
    · exact l.instr_leads code lineNo base depth
    · rw [List.mem_singleton.mp hp]
      exact r.instr_leads code lineNo (base + 1) depth
  | exists_ h lineNo =>
    rw [List.mem_singleton.mp hp]
    exact .plain rfl rfl

/-- The test instruction stands behind its pushes. -/
theorem Test.instr_seq (t : Test) (base : Nat) (depth : Int) (skip : Option Nat) :
    (t.instr base depth skip).seq + 1 = base + t.size := by
  cases t <;> rfl

theorem Test.instr_target (t : Test) (base : Nat) (depth : Int) (skip : Option Nat) :
    (t.instr base depth skip).skip = skip := by
  cases t <;> rfl

/-- A test that jumps over a block. -/
theorem Test.instr_leads (t : Test) {code : List Pcode} {q : Pcode} {base : Nat} {depth : Int}
    (hq : q ∈ code) (hblock : q.opcode = .OP_BLOCK) (hseq : base + t.size ≤ q.seq)
    (hdepth : q.ctrlStructRefCount = depth) :
    (t.instr base depth (some q.seq)).Leads code := by
  have htest := t.instr_seq base depth (some q.seq)
  refine .jump (t.instr_target ..) hq hblock (by omega) ?_
  rw [hdepth, t.instr_depth]

mutual

/-- Every jump in the code of a statement stays in it and leads forward. -/
theorem Statement.layout_leads (s : Statement) (base : Nat) (depth : Int) :
    ∀ p ∈ s.layout base depth, p.Leads (s.layout base depth) := by
  intro p hp
  cases s with
  | function f args lineNo =>
    rcases List.mem_append.mp hp with hp | hp
    · exact args.layout_leads _ lineNo base depth p hp
    · rw [List.mem_singleton.mp hp]
      exact .plain rfl rfl
  | assignment lhs rhs lineNo =>
    rcases List.mem_cons.mp hp with rfl | hp
    · exact (Operand.hash lhs).instr_leads _ lineNo base depth
    rcases List.mem_cons.mp hp with rfl | hp
    · exact rhs.instr_leads _ lineNo (base + 1) depth
    · rw [List.mem_singleton.mp hp]
      exact .plain rfl rfl
  | ifconst t block lineNo =>
    have hblock : block.layout (base + t.size + 1) (depth + 1) ⊆
        (Statement.ifconst t block lineNo).layout base depth := by
      intro q hq
      simp only [Statement.layout, List.mem_append, hq, true_or, or_true]
    have hend : blockEnd lineNo (base + t.size + 1 + block.size) (depth + 1) none ∈
        (Statement.ifconst t block lineNo).layout base depth :=
      List.mem_append_right _ List.mem_cons_self
    simp only [Statement.layout, Test.code, List.mem_append, List.mem_singleton, or_assoc] at hp
    rcases hp with hp | rfl | rfl | hp | rfl
    · exact t.pushes_leads _ base (depth + 1) p hp
    · exact t.instr_leads hend rfl (by simp only [blockEnd]; omega) rfl
    · exact .plain rfl rfl
    · exact (block.layout_leads _ _ p hp).mono hblock
    · exact .plain rfl rfl
  | ifelseconst t block elseblock lineNo =>
    have hblock : block.layout (base + t.size + 1) (depth + 1) ⊆
        (Statement.ifelseconst t block elseblock lineNo).layout base depth := by
      intro q hq
      simp only [Statement.layout, List.mem_append, hq, true_or, or_true]
    have helse : elseblock.layout (base + t.size + 1 + block.size + 2) (depth + 1) ⊆
        (Statement.ifelseconst t block elseblock lineNo).layout base depth := by
      intro q hq
      simp only [Statement.layout, List.mem_append, hq, true_or, or_true]
    have hbegin : blockBegin lineNo (base + t.size + 1 + block.size + 1) (depth + 1) ∈
        (Statement.ifelseconst t block elseblock lineNo).layout base depth := by
      simp only [Statement.layout, List.mem_append, List.mem_singleton, true_or, or_true]
    have hend : blockEnd lineNo
          (base + t.size + 1 + block.size + 2 + elseblock.size) (depth + 1) none ∈
        (Statement.ifelseconst t block elseblock lineNo).layout base depth :=
      List.mem_append_right _ List.mem_cons_self
    simp only [Statement.layout, Test.code, List.mem_append, List.mem_singleton, or_assoc] at hp
    rcases hp with hp | rfl | rfl | hp | rfl | rfl | hp | rfl
    · exact t.pushes_leads _ base (depth + 1) p hp
    · exact t.instr_leads hbegin rfl (by simp only [blockBegin]; omega) rfl
    · exact .plain rfl rfl
    · exact (block.layout_leads _ _ p hp).mono hblock
    -- the close block of the first branch jumps over the second
    · exact .jump (q := blockEnd lineNo _ (depth + 1) none) rfl hend rfl
        (by simp only [blockEnd]; omega) rfl
    · exact .plain rfl rfl
    · exact (elseblock.layout_leads _ _ p hp).mono helse
    · exact .plain rfl rfl
termination_by structural s

theorem StatementList.layout_leads (l : StatementList) (base : Nat) (depth : Int) :
    ∀ p ∈ l.layout base depth, p.Leads (l.layout base depth) := by
  intro p hp
  cases l with
  | initial s => exact s.layout_leads base depth p hp
  | successive l s =>
    rcases List.mem_append.mp hp with hp | hp
    · exact (l.layout_leads base depth p hp).mono (List.subset_append_left ..)
    · exact (s.layout_leads _ depth p hp).mono (List.subset_append_right ..)
termination_by structural l

end

/-! ## Sequence numbers -/

/-- The instructions are numbered from `base` on. -/
def Numbered (base : Nat) (l : List Pcode) : Prop := l.map Pcode.seq = List.range' base l.length

theorem Numbered.append {base next : Nat} {l l' : List Pcode} (h : Numbered base l)
    (h' : Numbered next l') (hnext : base + l.length = next) : Numbered base (l ++ l') := by
  subst hnext
  rw [Numbered, List.map_append, h, h', List.range'_append_1, List.length_append]

theorem Numbered.getElem? {base i : Nat} {l : List Pcode} {p : Pcode} (h : Numbered base l)
    (hp : l[i]? = some p) : p.seq = base + i := by
  have hlt : i < l.length := (List.getElem?_eq_some_iff.mp hp).1
  have hseq : (l.map Pcode.seq)[i]? = some p.seq := by
    rw [List.getElem?_map, hp]
    rfl
  rw [h, List.getElem?_range' hlt, Nat.one_mul] at hseq
  exact (Option.some.inj hseq).symm

theorem Argument.instr_seq (a : Argument) (lineNo : Int) (seq : Nat) (depth : Int) :
    (a.instr lineNo seq depth).seq = seq := by
  cases a <;> rfl

theorem Operand.instr_seq (o : Operand) (lineNo : Int) (seq : Nat) (depth : Int) :
    (o.instr lineNo seq depth).seq = seq := by
  cases o <;> rfl

theorem Numbered.cons {p : Pcode} {base : Nat} {l : List Pcode} (h : p.seq = base)
    (hl : Numbered (base + 1) l) : Numbered base (p :: l) := by
  subst h
  rw [Numbered, List.map_cons, hl, List.length_cons, List.range'_succ]

/-- One instruction that bears its number. -/
theorem Numbered.single {p : Pcode} {base : Nat} (h : p.seq = base) : Numbered base [p] :=
  .cons h rfl

theorem ArgumentList.layout_numbered (l : ArgumentList) (lineNo : Int) (base : Nat)
    (depth : Int) : Numbered base (l.layout lineNo base depth) := by
  induction l with
  | initial a => exact .single (a.instr_seq ..)
  | successive l a ih =>
    exact ih.append (.single (a.instr_seq ..)) (by rw [l.layout_length])

theorem Test.code_numbered (t : Test) {base : Nat} (depth : Int) (skip : Option Nat)
    {l : List Pcode} (hl : Numbered (base + t.size) l) :
    Numbered base (t.code base depth skip ++ l) := by
  refine Numbered.append ?_ hl (by rw [t.code_length])
  cases t with
  | compare l op r lineNo =>
    exact .cons (l.instr_seq ..) (.cons (r.instr_seq ..) (.single rfl))
  | exists_ h lineNo => rfl

mutual

/-- A statement's code is numbered from its first position on. -/
theorem Statement.layout_numbered (s : Statement) (base : Nat) (depth : Int) :
    Numbered base (s.layout base depth) := by
  cases s with
  | function f args lineNo =>
    exact (args.layout_numbered lineNo base depth).append (.single rfl) (by rw [args.layout_length])
  | assignment lhs rhs lineNo =>
    exact .cons rfl (.cons (rhs.instr_seq ..) (.single rfl))
  | ifconst t block lineNo =>
    simp only [Statement.layout, List.append_assoc, List.cons_append, List.nil_append]
    refine t.code_numbered _ _ (.cons rfl ?_)
    exact (block.layout_numbered _ _).append (.single rfl) (by rw [block.layout_length]; rfl)
  | ifelseconst t block elseblock lineNo =>
    simp only [Statement.layout, List.append_assoc, List.cons_append, List.nil_append]
    refine t.code_numbered _ _ (.cons rfl ?_)
    refine (block.layout_numbered _ _).append (.cons rfl (.cons rfl ?_))
      (by rw [block.layout_length]; rfl)
    exact (elseblock.layout_numbered _ _).append (.single rfl) (by rw [elseblock.layout_length]; rfl)
termination_by structural s

theorem StatementList.layout_numbered (l : StatementList) (base : Nat) (depth : Int) :
    Numbered base (l.layout base depth) := by
  cases l with
  | initial s => exact s.layout_numbered base depth
  | successive l s =>
    exact (l.layout_numbered base depth).append (s.layout_numbered _ depth)
      (by rw [l.layout_length])
termination_by structural l

end

/-! ## The calls of `ParserSetJumps` -/

/-- A call of `ParserSetJumps`: the header it is given and its token. -/
abbrev JumpCall := PcodeHeader × JumpToken

/-- The calls that follow an action, which the fault of one prevents. -/
def callsAfter (done : Except Fault ParseCtrl) (calls : ParseCtrl → List JumpCall) :
    List JumpCall :=
  match done with
  | .error _ => []
  | .ok pc => calls pc

mutual

/-- The calls of `ParserSetJumps` that `Statement.reduce` makes. -/
def Statement.jumpCalls (s : Statement) (pc : ParseCtrl) : List JumpCall :=
  match s with
  | .function .. => []
  | .assignment .. => []
  | .ifconst t block lineNo =>
    callsAfter (t.reduce (pc.nest 1)) fun pc =>
      let pc := blockstart (pc.atLine lineNo)
      block.jumpCalls pc ++ callsAfter (block.reduce pc) fun pc =>
        [((blockend (pc.atLine lineNo)).pcodeHeader, .TOK_IF)]
  | .ifelseconst t block elseblock lineNo =>
    callsAfter (t.reduce (pc.nest 1)) fun pc =>
      let pc := blockstart (pc.atLine lineNo)
      block.jumpCalls pc ++ callsAfter (block.reduce pc) fun pc =>
        let pc := blockstart (blockend (pc.atLine lineNo))
        elseblock.jumpCalls pc ++ callsAfter (elseblock.reduce pc) fun pc =>
          [((blockend (pc.atLine lineNo)).pcodeHeader, .TOK_ELSE)]

def StatementList.jumpCalls (l : StatementList) (pc : ParseCtrl) : List JumpCall :=
  match l with
  | .initial s => s.jumpCalls pc
  | .successive l s => l.jumpCalls pc ++ callsAfter (l.reduce pc) s.jumpCalls

end

def Start.jumpCalls (t : Start) (pc : ParseCtrl) : List JumpCall :=
  match t with
  | .statementlist l => l.jumpCalls pc
  | .badchar _ => []

/-- No assertion fails in the call. -/
def Returns (call : JumpCall) : Prop := ∃ ph, ParserSetJumps call.1 call.2 = .ok ph

theorem closeIf_returns {pc pc' : ParseCtrl} {tokenID : JumpToken}
    (h : pc.closeIf tokenID = .ok pc') : Returns (pc.pcodeHeader, tokenID) := by
  obtain ⟨ph, hph, -⟩ := bind_ok h
  exact ⟨ph, hph⟩

theorem Test.reduce_aligned {t : Test} {pc pc' : ParseCtrl} (ha : pc.Aligned)
    (h : t.reduce pc = .ok pc') : pc'.Aligned := by
  rw [Test.reduce_eq pc (Test.reduce_returns h)] at h
  cases h
  exact (ha.atLine _).emit _

theorem StatementList.reduce_aligned {l : StatementList} {pc pc' : ParseCtrl} (ha : pc.Aligned)
    (h : l.reduce pc = .ok pc') : pc'.Aligned := by
  rw [l.reduce_eq_layout pc ha (l.reduce_returns h)] at h
  cases h
  exact (ha.atLine _).emit _

theorem blockstart_aligned {pc : ParseCtrl} (ha : pc.Aligned) : (blockstart pc).Aligned :=
  ha.emit _

theorem blockend_aligned {pc : ParseCtrl} (ha : pc.Aligned) : (blockend pc).Aligned :=
  ha.emit _

theorem ifconst_returns {t : Test} {block : StatementList} {lineNo : Int}
    {pc pc₁ pc₂ : ParseCtrl} (ha : pc.Aligned) (ht : t.reduce (pc.nest 1) = .ok pc₁)
    (hb : block.reduce (blockstart (pc₁.atLine lineNo)) = .ok pc₂) :
    Returns ((blockend (pc₂.atLine lineNo)).pcodeHeader, .TOK_IF) := by
  have hempty : (Statement.ifconst t block lineNo).hasEmptyString = false :=
    Bool.or_eq_false_iff.mpr ⟨Test.reduce_returns ht, block.reduce_returns hb⟩
  have hreduce := (Statement.ifconst t block lineNo).reduce_eq_layout pc ha hempty
  simp only [Statement.reduce, ht, hb, ok_bind] at hreduce
  exact closeIf_returns hreduce

theorem ifelseconst_returns {t : Test} {block elseblock : StatementList} {lineNo : Int}
    {pc pc₁ pc₂ pc₃ : ParseCtrl} (ha : pc.Aligned) (ht : t.reduce (pc.nest 1) = .ok pc₁)
    (hb : block.reduce (blockstart (pc₁.atLine lineNo)) = .ok pc₂)
    (he : elseblock.reduce (blockstart (blockend (pc₂.atLine lineNo))) = .ok pc₃) :
    Returns ((blockend (pc₃.atLine lineNo)).pcodeHeader, .TOK_ELSE) := by
  have hempty : (Statement.ifelseconst t block elseblock lineNo).hasEmptyString = false :=
    Bool.or_eq_false_iff.mpr ⟨Bool.or_eq_false_iff.mpr
      ⟨Test.reduce_returns ht, block.reduce_returns hb⟩, elseblock.reduce_returns he⟩
  have hreduce := (Statement.ifelseconst t block elseblock lineNo).reduce_eq_layout pc ha hempty
  simp only [Statement.reduce, ht, hb, he, ok_bind] at hreduce
  exact closeIf_returns hreduce

/-- What holds of the calls behind an action is shown for an action that
returned. -/
theorem forall_mem_callsAfter {done : Except Fault ParseCtrl}
    {calls : ParseCtrl → List JumpCall} {P : JumpCall → Prop}
    (h : ∀ pc, done = .ok pc → ∀ call ∈ calls pc, P call) :
    ∀ call ∈ callsAfter done calls, P call := by
  cases done with
  | error f =>
    intro call hcall
    cases hcall
  | ok pc => exact h pc rfl

mutual

/-- **Every call of `ParserSetJumps` comes to its test.** -/
theorem Statement.jumpCalls_return (s : Statement) {pc : ParseCtrl} (ha : pc.Aligned) :
    ∀ call ∈ s.jumpCalls pc, Returns call := by
  cases s with
  | function f args lineNo =>
    intro call hcall
    cases hcall
  | assignment lhs rhs lineNo =>
    intro call hcall
    cases hcall
  | ifconst t block lineNo =>
    refine forall_mem_callsAfter fun pc₁ ht => ?_
    have ha₁ := blockstart_aligned ((Test.reduce_aligned (ha.nest 1) ht).atLine lineNo)
    refine List.forall_mem_append.mpr ⟨block.jumpCalls_return ha₁, ?_⟩
    refine forall_mem_callsAfter fun pc₂ hb => ?_
    exact List.forall_mem_singleton.mpr (ifconst_returns ha ht hb)
  | ifelseconst t block elseblock lineNo =>
    refine forall_mem_callsAfter fun pc₁ ht => ?_
    have ha₁ := blockstart_aligned ((Test.reduce_aligned (ha.nest 1) ht).atLine lineNo)
    refine List.forall_mem_append.mpr ⟨block.jumpCalls_return ha₁, ?_⟩
    refine forall_mem_callsAfter fun pc₂ hb => ?_
    have ha₂ := blockstart_aligned (blockend_aligned
      ((block.reduce_aligned ha₁ hb).atLine lineNo))
    refine List.forall_mem_append.mpr ⟨elseblock.jumpCalls_return ha₂, ?_⟩
    refine forall_mem_callsAfter fun pc₃ he => ?_
    exact List.forall_mem_singleton.mpr (ifelseconst_returns ha ht hb he)
termination_by structural s

theorem StatementList.jumpCalls_return (l : StatementList) {pc : ParseCtrl} (ha : pc.Aligned) :
    ∀ call ∈ l.jumpCalls pc, Returns call := by
  cases l with
  | initial s => exact s.jumpCalls_return ha
  | successive l s =>
    refine List.forall_mem_append.mpr ⟨l.jumpCalls_return ha, ?_⟩
    exact forall_mem_callsAfter fun pc₁ hl => s.jumpCalls_return (l.reduce_aligned ha hl)
termination_by structural l

end

/-- An `if` in the second branch of another is closed before it. -/
example :
    let k : Hash := ⟨⟨cstr "a", by decide⟩, ⟨cstr "b", by decide⟩⟩
    let block : StatementList := .initial (.assignment k (.rvalue (.intlit (cstr "1"))) 2)
    let inner : Statement := .ifconst (.exists_ k 3) block 3
    let outer : Statement := .ifelseconst (.exists_ k 1) block (.initial inner) 1
    (outer.jumpCalls .zero).map Prod.snd = [.TOK_IF, .TOK_ELSE] := by decide

/-! ## Execution goes forward -/

/-- The jump structure of a compiled script. -/
structure PcodeHeader.SoundJumps (ph : PcodeHeader) : Prop where
  /-- A sequence number is a position. -/
  seq_eq : ∀ (i : Nat) (p : Pcode), ph.code[i]? = some p → p.seq = i
  /-- A test or exists instruction has somewhere to skip to. -/
  test_skips : ∀ p ∈ ph.code, p.isTest = true → p.skip ≠ none
  /-- A jump leads forward to a block edge of the same nesting count. -/
  skip_block : ∀ p ∈ ph.code, ∀ target, p.skip = some target →
    ∃ q, ph.code[target]? = some q ∧ q.opcode = .OP_BLOCK ∧ p.seq < q.seq ∧
      q.ctrlStructRefCount = p.ctrlStructRefCount
  /-- Every `if` has been closed. -/
  balanced : ph.ctrlStructRefCount = 0

theorem StatementList.layout_soundJumps (l : StatementList) (seq : Nat) :
    PcodeHeader.SoundJumps ⟨l.layout 0 0, 0, seq⟩ where
  seq_eq i p hp := by
    rw [(l.layout_numbered 0 0).getElem? hp, Nat.zero_add]
  test_skips p hp := (l.layout_leads 0 0 p hp).1
  skip_block p hp target htarget := by
    obtain ⟨q, hq, hseq, hrest⟩ := (l.layout_leads 0 0 p hp).2 target htarget
    obtain ⟨i, hi⟩ := List.mem_iff_getElem?.mp hq
    have hpos := (l.layout_numbered 0 0).getElem? hi
    rw [Nat.zero_add, hseq] at hpos
    subst hpos
    exact ⟨q, hi, hrest⟩
  balanced := rfl

theorem PcodeHeader.zero_soundJumps : PcodeHeader.zero.SoundJumps where
  seq_eq i p hp := by cases hp
  test_skips p hp := by cases hp
  skip_block p hp := by cases hp
  balanced := rfl

/-- The header of a program whose actions have returned. -/
theorem Start.soundJumps {tree : Start} {pc : ParseCtrl} (h : tree.reduce .zero = .ok pc) :
    pc.pcodeHeader.SoundJumps := by
  cases tree with
  | statementlist l =>
    rw [Start.reduce, l.reduce_zero (l.reduce_returns h)] at h
    cases h
    exact l.layout_soundJumps _
  | badchar c =>
    cases h
    exact PcodeHeader.zero_soundJumps

section

variable {D σ : Type} {env : Env D σ} {mode : Mode}

/-- **Each turn of the interpreter is at a later instruction.** -/
theorem execTurn_forward {ph : PcodeHeader} (hph : ph.SoundJumps) (func : Func σ) :
    Lib.GoesForward (execTurn env mode func ph.code) Prod.fst ph.code.length := by
  rintro ⟨i, ex⟩ s hturn
  obtain ⟨pe, j, ex', hpe, hinstr, rfl⟩ := execTurn_again hturn
  have hlast : i < ph.code.length := (List.getElem?_eq_some_iff.mp hpe).1
  refine ⟨hlast, ?_⟩
  rcases (execInstr_spec hinstr).1 with rfl | ⟨-, hskip⟩
  · exact Nat.lt_succ_self _
  · obtain ⟨q, hq, -, hlt, -⟩ := hph.skip_block pe (List.mem_of_getElem? hpe) j hskip
    rw [hph.seq_eq i pe hpe, hph.seq_eq j q hq] at hlt
    exact Nat.lt_succ_of_lt hlt

variable (env mode)

/-- The instruction a turn executes. -/
def instrAt (code : List Pcode) (at_ : Nat × ExecState σ) : Option Pcode :=
  if at_.2.store.stopped then none else code[at_.1]?

/-- The instructions `ParserExecPcode` executes, one after the other. -/
def executed (func : Func σ) (code : List Pcode) (fuel : Nat) (st : Store σ) : List Pcode :=
  (Lib.trail (execTurn env mode func code) fuel (0, ⟨st, none, 0⟩)).filterMap (instrAt code)

variable {env mode}

theorem executed_pairwise {ph : PcodeHeader} (hph : ph.SoundJumps) (func : Func σ) (fuel : Nat)
    (st : Store σ) :
    (executed env mode func ph.code fuel st).Pairwise fun p q => p.seq < q.seq := by
  have hseq : ∀ {s : Nat × ExecState σ} {p : Pcode}, instrAt ph.code s = some p → p.seq = s.1 := by
    intro s p hp
    rw [instrAt] at hp
    split at hp
    · cases hp
    · exact hph.seq_eq s.1 p hp
  refine List.Pairwise.filterMap (instrAt ph.code) ?_
    ((execTurn_forward hph func).trail_pairwise fuel (0, ⟨st, none, 0⟩))
  intro s s' hlt p hp q hq
  rw [hseq hp, hseq hq]
  exact hlt

theorem ParserExecPcode_terminates {ph : PcodeHeader} (hph : ph.SoundJumps) (func : Func σ)
    (st : Store σ) : ∃ r, ∀ fuel, ph.code.length < fuel →
      ParserExecPcode env mode func ph.code fuel st = some r := by
  have hforward : Lib.GoesForward (execTurn env mode func ph.code) Prod.fst ph.code.length :=
    execTurn_forward hph func
  obtain ⟨r, hr⟩ : ∃ r, ParserExecPcode env mode func ph.code (ph.code.length + 1) st = some r := by
    rw [ParserExecPcode]
    split
    · exact ⟨_, rfl⟩
    · obtain ⟨ex, hex⟩ := hforward.terminates (s := (0, ⟨st, none, 0⟩))
        (Nat.lt_succ_self ph.code.length)
      rw [hex]
      exact ⟨_, rfl⟩
  exact ⟨r, fun fuel hfuel => ParserExecPcode_mono hr hfuel⟩

end

/-- **Jump structure and termination.** No assertion fails in any call of
`ParserSetJumps` a parse makes. When the parse is through, the jumps are
sound, and every execution of the code, whatever answers the tests, the
hashes and the built-in functions get, is at each of its instructions
once and in the order of their sequence numbers, and ends. -/
theorem jumps_sound (tree : Start) :
    (∀ call ∈ tree.jumpCalls .zero, Returns call) ∧
    ∀ pc, tree.reduce .zero = .ok pc → pc.pcodeHeader.SoundJumps ∧
      ∀ {D σ : Type} (env : Env D σ) (mode : Mode) (func : Func σ) (st : Store σ),
        (∀ fuel, (executed env mode func pc.pcodeHeader.code fuel st).Pairwise
          fun p q => p.seq < q.seq) ∧
        ∃ r, ∀ fuel, pc.pcodeHeader.code.length < fuel →
          ParserExecPcode env mode func pc.pcodeHeader.code fuel st = some r := by
  constructor
  · cases tree with
    | statementlist l => exact l.jumpCalls_return rfl
    | badchar c =>
      intro call hcall
      cases hcall
  · intro pc h
    have hph := Start.soundJumps h
    refine ⟨hph, fun env mode func st => ⟨fun fuel => executed_pairwise hph func fuel st, ?_⟩⟩
    exact ParserExecPcode_terminates hph func st

end XplEvent.Script
