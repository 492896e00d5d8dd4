import XplEvent.Script.Eval

/-!
# What the grammar actions emit

`layout base depth` is the code of a tree whose first instruction stands
at position `base` and whose rules are reduced at nesting count `depth`:
the instructions in order, each jump already pointing at its target. The
definition is structural and knows nothing of patching.

`reduce_eq_layout` says that the actions emit exactly that: appending,
counting and walking back over the nesting counts install the jumps a
structural translation would have put there. The walk finds its
instruction because everything emitted inside a block sits at a greater
count, or is no block edge and no test (`layout_nested`).

The one thing that can go wrong is a string literal with nothing between
its quotes: `UtilMoveString` refuses to chop the last character off.
-/

namespace XplEvent.Script

/-! ## The empty string literal -/

/-- The token `""`. -/
abbrev emptyLiteral : Token := .stringlit false []

def Rvalue.isEmptyString : Rvalue → Bool
  | .stringlit false [] => true
  | _ => false

def Operand.hasEmptyString : Operand → Bool
  | .hash _ => false
  | .rvalue r => r.isEmptyString

def Argument.hasEmptyString : Argument → Bool
  | .rvalue r => r.isEmptyString
  | .hashref _ => false

def ArgumentList.hasEmptyString : ArgumentList → Bool
  | .initial a => a.hasEmptyString
  | .successive l a => l.hasEmptyString || a.hasEmptyString

def Test.hasEmptyString : Test → Bool
  | .compare l _ r _ => l.hasEmptyString || r.hasEmptyString
  | .exists_ .. => false

mutual

def Statement.hasEmptyString : Statement → Bool
  | .function _ args _ => args.hasEmptyString
  | .assignment _ rhs _ => rhs.hasEmptyString
  | .ifconst t block _ => t.hasEmptyString || block.hasEmptyString
  | .ifelseconst t block elseblock _ =>
    t.hasEmptyString || block.hasEmptyString || elseblock.hasEmptyString

def StatementList.hasEmptyString : StatementList → Bool
  | .initial s => s.hasEmptyString
  | .successive l s => l.hasEmptyString || s.hasEmptyString

end

theorem Rvalue.mem_of_isEmptyString {r : Rvalue} (h : r.isEmptyString = true) :
    emptyLiteral ∈ r.yield := by
  rcases r with t | t | ⟨_ | _, _ | ⟨c, body⟩⟩ <;> first | exact List.mem_singleton_self _ | cases h

theorem Operand.mem_of_hasEmptyString {o : Operand} (h : o.hasEmptyString = true) :
    emptyLiteral ∈ o.yield := by
  cases o with
  | hash k => cases h
  | rvalue r => exact Rvalue.mem_of_isEmptyString h

theorem ArgumentList.mem_of_hasEmptyString {l : ArgumentList} (h : l.hasEmptyString = true) :
    emptyLiteral ∈ l.yield := by
  have harg : ∀ a : Argument, a.hasEmptyString = true → emptyLiteral ∈ a.yield := by
    intro a ha
    cases a with
    | rvalue r => exact Rvalue.mem_of_isEmptyString ha
    | hashref n => cases ha
  induction l with
  | initial a => exact harg a h
  | successive l a ih =>
    rcases Bool.or_eq_true_iff.mp h with hl | ha
    · exact List.mem_append_left _ (ih hl)
    · exact List.mem_append_right _ (List.mem_cons_of_mem _ (harg a ha))

theorem Test.mem_of_hasEmptyString {t : Test} (h : t.hasEmptyString = true) :
    emptyLiteral ∈ t.yield := by
  cases t with
  | compare l op r n =>
    rcases Bool.or_eq_true_iff.mp h with hl | hr
    · exact List.mem_append_left _ (Operand.mem_of_hasEmptyString hl)
    · exact List.mem_append_right _ (List.mem_cons_of_mem _ (Operand.mem_of_hasEmptyString hr))
  | exists_ k n => cases h

mutual

theorem Statement.mem_of_hasEmptyString (s : Statement) (h : s.hasEmptyString = true) :
    emptyLiteral ∈ s.yield := by
  cases s with
  | function f args n =>
    have hargs := ArgumentList.mem_of_hasEmptyString (l := args) h
    simp only [Statement.yield, List.mem_append, hargs, or_true, true_or]
  | assignment lhs rhs n =>
    have hrhs := Operand.mem_of_hasEmptyString (o := rhs) h
    simp only [Statement.yield, List.mem_append, List.mem_cons, hrhs, or_true, true_or]
  | ifconst t block n =>
    simp only [Statement.yield, List.mem_append]
    rcases Bool.or_eq_true_iff.mp h with ht | hb
    · simp only [Test.mem_of_hasEmptyString ht, or_true, true_or]
    · simp only [block.mem_of_hasEmptyString hb, or_true, true_or]
  | ifelseconst t block elseblock n =>
    simp only [Statement.yield, List.mem_append]
    rcases Bool.or_eq_true_iff.mp h with htb | he
    · rcases Bool.or_eq_true_iff.mp htb with ht | hb
      · simp only [Test.mem_of_hasEmptyString ht, or_true, true_or]
      · simp only [block.mem_of_hasEmptyString hb, or_true, true_or]
    · simp only [elseblock.mem_of_hasEmptyString he, or_true, true_or]
termination_by structural s

theorem StatementList.mem_of_hasEmptyString (l : StatementList) (h : l.hasEmptyString = true) :
    emptyLiteral ∈ l.yield := by
  cases l with
  | initial s => exact s.mem_of_hasEmptyString h
  | successive l s =>
    rcases Bool.or_eq_true_iff.mp h with hl | hs
    · exact List.mem_append_left _ (l.mem_of_hasEmptyString hl)
    · exact List.mem_append_right _ (s.mem_of_hasEmptyString hs)
termination_by structural l

end

/-! ## The code of a tree -/

/-- The instruction a literal is pushed with. -/
def Rvalue.instr (r : Rvalue) (lineNo : Int) (seq : Nat) (depth : Int) : Pcode :=
  ⟨.OP_PUSH, r.kind, lineNo, seq, depth, some r.text,
    some (match r with
      | .intlit _ => cstr "integer literal"
      | .floatlit _ => cstr "float literal"
      | .stringlit .. => cstr "string literal"), none⟩

def Hash.instr (h : Hash) (lineNo : Int) (seq : Nat) (depth : Int) : Pcode :=
  ⟨.OP_PUSH, .OPRD_HASHKV, lineNo, seq, depth, some h.scalar.text, some h.key.text, none⟩

def Operand.instr (o : Operand) (lineNo : Int) (seq : Nat) (depth : Int) : Pcode :=
  match o with
  | .hash h => h.instr lineNo seq depth
  | .rvalue r => r.instr lineNo seq depth

def Argument.instr (a : Argument) (lineNo : Int) (seq : Nat) (depth : Int) : Pcode :=
  match a with
  | .rvalue r => r.instr lineNo seq depth
  | .hashref n => ⟨.OP_PUSH, .OPRD_HASHREF, lineNo, seq, depth, some n.text, none, none⟩

def ArgumentList.size : ArgumentList → Nat
  | .initial _ => 1
  | .successive l _ => l.size + 1

def ArgumentList.layout (l : ArgumentList) (lineNo : Int) (base : Nat) (depth : Int) :
    List Pcode :=
  match l with
  | .initial a => [a.instr lineNo base depth]
  | .successive l a => l.layout lineNo base depth ++ [a.instr lineNo (base + l.size) depth]

def Test.size : Test → Nat
  | .compare .. => 3
  | .exists_ .. => 2

/-- The pushes of a test. -/
def Test.pushes (t : Test) (base : Nat) (depth : Int) : List Pcode :=
  match t with
  | .compare l _ r lineNo => [l.instr lineNo base depth, r.instr lineNo (base + 1) depth]
  | .exists_ h lineNo => [h.instr lineNo base depth]

/-- The test instruction itself. -/
def Test.instr (t : Test) (base : Nat) (depth : Int) (skip : Option Nat) : Pcode :=
  match t with
  | .compare _ op _ lineNo =>
    ⟨.OP_TEST2, .test op, lineNo, base + 2, depth, some (cstr "test"), some op.anno, skip⟩
  | .exists_ _ lineNo =>
    ⟨.OP_EXISTS, .none, lineNo, base + 1, depth, some (cstr "test"), some (cstr "exists"), skip⟩

/-- A test with its operands. -/
def Test.code (t : Test) (base : Nat) (depth : Int) (skip : Option Nat) : List Pcode :=
  t.pushes base depth ++ [t.instr base depth skip]

def blockBegin (lineNo : Int) (seq : Nat) (depth : Int) : Pcode :=
  ⟨.OP_BLOCK, .OPRB_BEGIN, lineNo, seq, depth, some (cstr "***BLOCK START***"), none, none⟩

def blockEnd (lineNo : Int) (seq : Nat) (depth : Int) (skip : Option Nat) : Pcode :=
  ⟨.OP_BLOCK, .OPRB_END, lineNo, seq, depth, some (cstr "***BLOCK END***"), none, skip⟩

mutual

def Statement.size : Statement → Nat
  | .function _ args _ => args.size + 1
  | .assignment .. => 3
  | .ifconst t block _ => t.size + 1 + block.size + 1
  | .ifelseconst t block elseblock _ => t.size + 1 + block.size + 2 + elseblock.size + 1

def StatementList.size : StatementList → Nat
  | .initial s => s.size
  | .successive l s => l.size + s.size

end

mutual

def Statement.layout (s : Statement) (base : Nat) (depth : Int) : List Pcode :=
  match s with
  | .function f args lineNo =>
    args.layout lineNo base depth ++
      [⟨.OP_FUNC, .token f, lineNo, base + args.size, depth, some f.token.stringVal, none, none⟩]
  | .assignment lhs rhs lineNo =>
    [lhs.instr lineNo base depth, rhs.instr lineNo (base + 1) depth,
      ⟨.OP_ASSIGN, .none, lineNo, base + 2, depth, some rhs.assignAnno, none, none⟩]
  | .ifconst t block lineNo =>
    let first := base + t.size + 1
    let last := first + block.size
    t.code base (depth + 1) (some last) ++
      [blockBegin lineNo (base + t.size) (depth + 1)] ++ block.layout first (depth + 1) ++
      [blockEnd lineNo last (depth + 1) none]
  | .ifelseconst t block elseblock lineNo =>
    let first := base + t.size + 1
    let last := first + block.size
    let elseFirst := last + 2
    let elseLast := elseFirst + elseblock.size
    t.code base (depth + 1) (some (last + 1)) ++
      [blockBegin lineNo (base + t.size) (depth + 1)] ++ block.layout first (depth + 1) ++
      [blockEnd lineNo last (depth + 1) (some elseLast)] ++
      [blockBegin lineNo (last + 1) (depth + 1)] ++ elseblock.layout elseFirst (depth + 1) ++
      [blockEnd lineNo elseLast (depth + 1) none]

def StatementList.layout (l : StatementList) (base : Nat) (depth : Int) : List Pcode :=
  match l with
  | .initial s => s.layout base depth
  | .successive l s => l.layout base depth ++ s.layout (base + l.size) depth

end

/-! ## Walking back -/

/-- What a walk at nesting `depth` passes over: a deeper instruction, or
one of the same count that is not wanted. -/
def Passes (depth : Int) (wanted : Pcode → Bool) (p : Pcode) : Prop :=
  depth ≤ p.ctrlStructRefCount ∧ (p.ctrlStructRefCount = depth → wanted p = false)

/-- A walk over instructions it passes ends at the first one it wants. -/
theorem walkBack_append {depth : Int} {wanted : Pcode → Bool} {l prevs : List Pcode} {p : Pcode}
    (hl : ∀ q ∈ l, Passes depth wanted q) (hp : p.ctrlStructRefCount = depth)
    (hw : wanted p = true) :
    walkBack depth wanted (l ++ p :: prevs) = .ok prevs.length := by
  induction l with
  | nil =>
    have hlt : ¬ p.ctrlStructRefCount < depth := by omega
    rw [List.nil_append, walkBack, if_neg hlt, if_pos ⟨hp, hw⟩]
  | cons q l ih =>
    obtain ⟨hle, hne⟩ := hl q List.mem_cons_self
    have hlt : ¬ q.ctrlStructRefCount < depth := by omega
    have hwanted : ¬ (q.ctrlStructRefCount = depth ∧ wanted q = true) := by
      rintro ⟨heq, hq⟩
      rw [hne heq] at hq
      cases hq
    simp only [List.cons_append, walkBack, if_neg hlt, if_neg hwanted]
    exact ih fun r hr => hl r (List.mem_cons_of_mem _ hr)

theorem setSkip_append (front rest : List Pcode) (p : Pcode) (target : Nat) :
    setSkip (front ++ p :: rest) front.length target =
      front ++ { p with skip := some target } :: rest := by
  induction front with
  | nil => rfl
  | cons q front ih => exact congrArg (q :: ·) ih

/-- The walk from the end of a block finds the test in front of it. -/
theorem walkBack_test {depth : Int} {front body : List Pcode} {test last : Pcode}
    (htest : test.isTest = true) (hdepth : test.ctrlStructRefCount = depth)
    (hlast : Passes depth Pcode.isTest last) (hbody : ∀ p ∈ body, Passes depth Pcode.isTest p) :
    walkBack depth Pcode.isTest ((last :: body.reverse) ++ test :: front.reverse) =
      .ok front.length := by
  rw [walkBack_append ?_ hdepth htest, List.length_reverse]
  intro q hq
  rcases List.mem_cons.mp hq with rfl | hq
  · exact hlast
  · exact hbody q (List.mem_reverse.mp hq)

/-- `if` without `else`: the walk from the close block finds the test the
block belongs to and points it at the close block. -/
theorem ParserSetJumps_if {ph : PcodeHeader} {front body : List Pcode} {test last : Pcode}
    (hcode : ph.code = front ++ test :: (body ++ [last])) (hlast : last.isBlockEnd = true)
    (htest : test.isTest = true) (hdepth : test.ctrlStructRefCount = last.ctrlStructRefCount)
    (hnot : last.isTest = false)
    (hbody : ∀ p ∈ body, Passes last.ctrlStructRefCount Pcode.isTest p) :
    ParserSetJumps ph .TOK_IF = .ok { ph with code :=
      front ++ { test with skip := some (front.length + 1 + body.length) } :: (body ++ [last]) } := by
  have hget : ph.code.getLast? = some last := by
    rw [hcode]
    simp only [List.getLast?_append, List.getLast?_cons, List.getLast?_nil, Option.getD_none,
      Option.some_or, Option.getD_some]
  have hrev : ph.code.reverse = (last :: body.reverse) ++ test :: front.reverse := by
    rw [hcode]
    simp only [List.reverse_append, List.reverse_cons, List.reverse_nil, List.nil_append,
      List.append_assoc, List.cons_append]
  have hwalk : walkBack last.ctrlStructRefCount Pcode.isTest ph.code.reverse =
      .ok front.length := by
    rw [hrev]
    exact walkBack_test htest hdepth ⟨Int.le_refl _, fun _ => hnot⟩ hbody
  have hlen : ph.code.length - 1 = front.length + 1 + body.length := by
    rw [hcode]
    simp only [List.length_append, List.length_cons, List.length_nil]
    omega
  simp only [ParserSetJumps, hget, hlast, ASSERT_FAIL_true, hwalk, hlen, bind, Except.bind, pure,
    Except.pure]
  rw [hcode, setSkip_append]

/-- `if` with `else`: the first close block is pointed at the second one,
and the test at the instruction after the first. -/
theorem ParserSetJumps_else {ph : PcodeHeader} {front body elseBody : List Pcode}
    {test thenLast last : Pcode}
    (hcode : ph.code = front ++ test :: (body ++ thenLast :: (elseBody ++ [last])))
    (hlast : last.isBlockEnd = true) (hthen : thenLast.isBlockEnd = true)
    (htest : test.isTest = true) (hnot : thenLast.isTest = false)
    (hdepth : test.ctrlStructRefCount = last.ctrlStructRefCount)
    (hthenDepth : thenLast.ctrlStructRefCount = last.ctrlStructRefCount)
    (hbody : ∀ p ∈ body, Passes last.ctrlStructRefCount Pcode.isTest p)
    (helse : ∀ p ∈ elseBody, Passes last.ctrlStructRefCount Pcode.isBlockEnd p) :
    ParserSetJumps ph .TOK_ELSE = .ok { ph with code :=
      front ++ { test with skip := some (front.length + body.length + 2) } ::
        (body ++ { thenLast with
            skip := some (front.length + body.length + elseBody.length + 2) } ::
          (elseBody ++ [last])) } := by
  let tail := front.length + body.length + elseBody.length + 2
  let thenLast' : Pcode := { thenLast with skip := some tail }
  have hget : ph.code.getLast? = some last := by
    rw [hcode]
    simp only [List.getLast?_append, List.getLast?_cons, List.getLast?_nil, Option.getD_none,
      Option.some_or, Option.getD_some]
  have hlen : ph.code.length = tail + 1 := by
    rw [hcode]
    simp only [List.length_append, List.length_cons, List.length_nil, tail]
    omega
  have hdrop : ph.code.dropLast.reverse =
      elseBody.reverse ++ thenLast :: (front ++ test :: body).reverse := by
    rw [hcode]
    have hsplit : front ++ test :: (body ++ thenLast :: (elseBody ++ [last])) =
        (front ++ test :: (body ++ thenLast :: elseBody)) ++ [last] := by
      simp only [List.append_assoc, List.cons_append]
    rw [hsplit, List.dropLast_concat]
    simp only [List.reverse_append, List.reverse_cons, List.append_assoc, List.cons_append,
      List.nil_append]
  have hprior : walkBack last.ctrlStructRefCount Pcode.isBlockEnd ph.code.dropLast.reverse =
      .ok (front ++ test :: body).length := by
    rw [hdrop, walkBack_append (fun q hq => helse q (List.mem_reverse.mp hq)) hthenDepth hthen,
      List.length_reverse]
  have hset : setSkip ph.code (front ++ test :: body).length tail =
      (front ++ test :: body) ++ thenLast' :: (elseBody ++ [last]) := by
    have hsplit : ph.code = (front ++ test :: body) ++ thenLast :: (elseBody ++ [last]) := by
      rw [hcode]
      simp only [List.append_assoc, List.cons_append]
    rw [hsplit, setSkip_append]
  have htake : (((front ++ test :: body) ++ thenLast' :: (elseBody ++ [last])).take
      ((front ++ test :: body).length + 1)).reverse =
        (thenLast' :: body.reverse) ++ test :: front.reverse := by
    rw [List.take_append, List.take_of_length_le (by omega)]
    simp only [Nat.add_sub_cancel_left, List.take_succ_cons, List.take_zero, List.reverse_append,
      List.reverse_cons, List.reverse_nil, List.nil_append, List.append_assoc, List.cons_append]
  have hwalk : walkBack last.ctrlStructRefCount Pcode.isTest
      ((thenLast' :: body.reverse) ++ test :: front.reverse) = .ok front.length :=
    walkBack_test htest hdepth ⟨Int.le_of_eq hthenDepth.symm, fun _ => hnot⟩ hbody
  simp only [ParserSetJumps, hget, hlast, ASSERT_FAIL_true, hprior, hlen, Nat.add_sub_cancel,
    hset, htake, hwalk, bind, Except.bind, pure, Except.pure]
  rw [show (front ++ test :: body) ++ thenLast' :: (elseBody ++ [last]) =
      front ++ test :: (body ++ thenLast' :: (elseBody ++ [last])) by
    simp only [List.append_assoc, List.cons_append], setSkip_append]
  simp only [List.length_append, List.length_cons]
  rfl

/-! ## The shape of a layout -/

@[simp] theorem ArgumentList.layout_length (l : ArgumentList) (lineNo : Int) (base : Nat)
    (depth : Int) : (l.layout lineNo base depth).length = l.size := by
  induction l with
  | initial a => rfl
  | successive l a ih => simp only [ArgumentList.layout, List.length_append, ih]; rfl

theorem Test.pushes_length (t : Test) (base : Nat) (depth : Int) :
    (t.pushes base depth).length + 1 = t.size := by
  cases t <;> rfl

@[simp] theorem Test.code_length (t : Test) (base : Nat) (depth : Int) (skip : Option Nat) :
    (t.code base depth skip).length = t.size := by
  cases t <;> rfl

mutual

theorem Statement.layout_length (s : Statement) (base : Nat) (depth : Int) :
    (s.layout base depth).length = s.size := by
  cases s with
  | function f args lineNo =>
    simp only [Statement.layout, List.length_append, ArgumentList.layout_length]
    rfl
  | assignment lhs rhs lineNo => rfl
  | ifconst t block lineNo =>
    have ht := t.pushes_length base (depth + 1)
    simp only [Statement.layout, Test.code, List.length_append, List.length_cons, List.length_nil,
      block.layout_length, Statement.size]
    omega
  | ifelseconst t block elseblock lineNo =>
    have ht := t.pushes_length base (depth + 1)
    simp only [Statement.layout, Test.code, List.length_append, List.length_cons, List.length_nil,
      block.layout_length, elseblock.layout_length, Statement.size]
    omega
termination_by structural s

theorem StatementList.layout_length (l : StatementList) (base : Nat) (depth : Int) :
    (l.layout base depth).length = l.size := by
  cases l with
  | initial s => exact s.layout_length base depth
  | successive l s =>
    simp only [StatementList.layout, List.length_append, l.layout_length, s.layout_length]
    rfl
termination_by structural l

end

theorem Statement.size_pos (s : Statement) : 0 < s.size := by
  cases s <;> simp only [Statement.size] <;> omega

/-- A script compiles to at least one instruction. -/
theorem StatementList.size_pos (l : StatementList) : 0 < l.size := by
  cases l with
  | initial s => exact s.size_pos
  | successive l s =>
    have hs := s.size_pos
    simp only [StatementList.size]
    omega

/-- What a walk at the count of an enclosing block may assume of the code
inside the block. -/
def Nested (depth : Int) (p : Pcode) : Prop :=
  depth ≤ p.ctrlStructRefCount ∧
    (p.ctrlStructRefCount = depth → p.isTest = false ∧ p.isBlockEnd = false)

theorem Nested.passes_test {depth : Int} {p : Pcode} (h : Nested depth p) :
    Passes depth Pcode.isTest p := ⟨h.1, fun e => (h.2 e).1⟩

theorem Nested.passes_blockEnd {depth : Int} {p : Pcode} (h : Nested depth p) :
    Passes depth Pcode.isBlockEnd p := ⟨h.1, fun e => (h.2 e).2⟩

/-- A deeper instruction is nested whatever it is. -/
theorem Nested.of_lt {depth : Int} {p : Pcode} (h : depth < p.ctrlStructRefCount) :
    Nested depth p := ⟨Int.le_of_lt h, fun e => by omega⟩

/-- A push at the block's own count is nested. -/
theorem Rvalue.instr_nested (r : Rvalue) (lineNo : Int) (seq : Nat) (depth : Int) :
    Nested depth (r.instr lineNo seq depth) :=
  ⟨Int.le_refl _, fun _ => ⟨rfl, rfl⟩⟩

theorem Operand.instr_nested (o : Operand) (lineNo : Int) (seq : Nat) (depth : Int) :
    Nested depth (o.instr lineNo seq depth) := by
  cases o with
  | hash h => exact ⟨Int.le_refl _, fun _ => ⟨rfl, rfl⟩⟩
  | rvalue r => exact r.instr_nested lineNo seq depth

theorem ArgumentList.layout_nested (l : ArgumentList) (lineNo : Int) (base : Nat) (depth : Int) :
    ∀ p ∈ l.layout lineNo base depth, Nested depth p := by
  have harg : ∀ (a : Argument) (seq : Nat), Nested depth (a.instr lineNo seq depth) := by
    intro a seq
    cases a with
    | rvalue r => exact r.instr_nested lineNo seq depth
    | hashref n => exact ⟨Int.le_refl _, fun _ => ⟨rfl, rfl⟩⟩
  induction l with
  | initial a =>
    intro p hp
    rw [List.mem_singleton.mp hp]
    exact harg a base
  | successive l a ih =>
    intro p hp
    rcases List.mem_append.mp hp with hp | hp
    · exact ih p hp
    · rw [List.mem_singleton.mp hp]
      exact harg a _

/-- The code of a test sits at the count of its block. -/
theorem Test.pushes_depth {t : Test} {base : Nat} {depth : Int} {p : Pcode}
    (hp : p ∈ t.pushes base depth) : p.ctrlStructRefCount = depth := by
  cases t with
  | compare l op r lineNo =>
    have hdepth : ∀ (o : Operand) (seq : Nat),
        (o.instr lineNo seq depth).ctrlStructRefCount = depth := by
      intro o seq
      cases o <;> rfl
    rcases List.mem_cons.mp hp with rfl | hp
    · exact hdepth l base
    · rw [List.mem_singleton.mp hp]
      exact hdepth r (base + 1)
  | exists_ h lineNo =>
    rw [List.mem_singleton.mp hp]
    rfl

@[simp] theorem Test.instr_depth (t : Test) (base : Nat) (depth : Int) (skip : Option Nat) :
    (t.instr base depth skip).ctrlStructRefCount = depth := by
  cases t <;> rfl

mutual

/-- Everything a statement emits sits at its count or deeper, and at its
own count there is no test and no block edge. -/
theorem Statement.layout_nested (s : Statement) (base : Nat) (depth : Int) :
    ∀ p ∈ s.layout base depth, Nested depth p := by
  intro p hp
  cases s with
  | function f args lineNo =>
    rcases List.mem_append.mp hp with hp | hp
    · exact args.layout_nested lineNo base depth p hp
    · rw [List.mem_singleton.mp hp]
      exact ⟨Int.le_refl _, fun _ => ⟨rfl, rfl⟩⟩
  | assignment lhs rhs lineNo =>
    rcases List.mem_cons.mp hp with rfl | hp
    · exact (Operand.hash lhs).instr_nested lineNo base depth
    rcases List.mem_cons.mp hp with rfl | hp
    · exact rhs.instr_nested lineNo (base + 1) depth
    · rw [List.mem_singleton.mp hp]
      exact ⟨Int.le_refl _, fun _ => ⟨rfl, rfl⟩⟩
  | ifconst t block lineNo =>
    apply Nested.of_lt
    simp only [Statement.layout, Test.code, List.mem_append, List.mem_singleton, or_assoc] at hp
    rcases hp with hp | rfl | rfl | hp | rfl
    · rw [Test.pushes_depth hp]
      exact Int.lt_succ depth
    · rw [Test.instr_depth]
      exact Int.lt_succ depth
    · exact Int.lt_succ depth
    · have := (block.layout_nested _ (depth + 1) p hp).1
      omega
    · exact Int.lt_succ depth
  | ifelseconst t block elseblock lineNo =>
    apply Nested.of_lt
    simp only [Statement.layout, Test.code, List.mem_append, List.mem_singleton, or_assoc] at hp
    rcases hp with hp | rfl | rfl | hp | rfl | rfl | hp | rfl
    · rw [Test.pushes_depth hp]
      exact Int.lt_succ depth
    · rw [Test.instr_depth]
      exact Int.lt_succ depth
    · exact Int.lt_succ depth
    · have := (block.layout_nested _ (depth + 1) p hp).1
      omega
    · exact Int.lt_succ depth
    · exact Int.lt_succ depth
    · have := (elseblock.layout_nested _ (depth + 1) p hp).1
      omega
    · exact Int.lt_succ depth
termination_by structural s

theorem StatementList.layout_nested (l : StatementList) (base : Nat) (depth : Int) :
    ∀ p ∈ l.layout base depth, Nested depth p := by
  intro p hp
  cases l with
  | initial s => exact s.layout_nested base depth p hp
  | successive l s =>
    rcases List.mem_append.mp hp with hp | hp
    · exact l.layout_nested base depth p hp
    · exact s.layout_nested _ depth p hp
termination_by structural l

end

/-! ## The actions emit the layout -/

/-- A control block with instructions appended to its code. -/
def ParseCtrl.emit (pc : ParseCtrl) (l : List Pcode) : ParseCtrl :=
  { pc with pcodeHeader :=
    { pc.pcodeHeader with
      code := pc.pcodeHeader.code ++ l
      seq := pc.pcodeHeader.seq + l.length } }

/-- Sequence numbers count the instructions. -/
def ParseCtrl.Aligned (pc : ParseCtrl) : Prop := pc.pcodeHeader.seq = pc.pcodeHeader.code.length

/-- The position and the nesting count of the next instruction. -/
def ParseCtrl.pos (pc : ParseCtrl) : Nat := pc.pcodeHeader.seq

def ParseCtrl.depth (pc : ParseCtrl) : Int := pc.pcodeHeader.ctrlStructRefCount

section

variable (pc : ParseCtrl) (l l' : List Pcode) (n : Int)

@[simp] theorem ParseCtrl.emit_emit : (pc.emit l).emit l' = pc.emit (l ++ l') := by
  simp only [ParseCtrl.emit, List.append_assoc, List.length_append, Nat.add_assoc]

@[simp] theorem ParseCtrl.emit_pos : (pc.emit l).pos = pc.pos + l.length := rfl

@[simp] theorem ParseCtrl.emit_depth : (pc.emit l).depth = pc.depth := rfl

@[simp] theorem ParseCtrl.emit_lineNo : (pc.emit l).lineNo = pc.lineNo := rfl

@[simp] theorem ParseCtrl.atLine_emit : (pc.emit l).atLine n = (pc.atLine n).emit l := rfl

@[simp] theorem ParseCtrl.atLine_atLine (m : Int) : (pc.atLine m).atLine n = pc.atLine n := rfl

@[simp] theorem ParseCtrl.atLine_pos : (pc.atLine n).pos = pc.pos := rfl

@[simp] theorem ParseCtrl.atLine_depth : (pc.atLine n).depth = pc.depth := rfl

@[simp] theorem ParseCtrl.atLine_lineNo : (pc.atLine n).lineNo = n := rfl

@[simp] theorem ParseCtrl.nest_pos : (pc.nest n).pos = pc.pos := rfl

@[simp] theorem ParseCtrl.nest_depth : (pc.nest n).depth = pc.depth + n := rfl

theorem ParseCtrl.Aligned.emit {pc : ParseCtrl} (h : pc.Aligned) (l : List Pcode) :
    (pc.emit l).Aligned := by
  simp only [ParseCtrl.Aligned, ParseCtrl.emit, List.length_append] at h ⊢
  omega

theorem ParseCtrl.Aligned.atLine {pc : ParseCtrl} (h : pc.Aligned) (n : Int) :
    (pc.atLine n).Aligned := h

theorem ParseCtrl.Aligned.nest {pc : ParseCtrl} (h : pc.Aligned) (n : Int) :
    (pc.nest n).Aligned := h

theorem ParserPcodeEmit_eq (op : OpType) (operand : OperandCode) (data1 data2 : Option CString) :
    ParserPcodeEmit pc op operand data1 data2 =
      pc.emit [⟨op, operand, pc.lineNo, pc.pos, pc.depth, data1, data2, none⟩] := rfl

theorem blockstart_eq : blockstart pc = pc.emit [blockBegin pc.lineNo pc.pos pc.depth] := rfl

theorem blockend_eq : blockend pc = pc.emit [blockEnd pc.lineNo pc.pos pc.depth none] := rfl

end

/-- Chopping the sigil off a name that has one. -/
theorem UtilMoveString_sigil (c : CChar) (n : Bareword) :
    UtilMoveString (c :: n.text) 1 = .ok n.text := by
  have hpos : 0 < n.text.length := List.length_pos_iff.mpr n.nonempty
  rw [UtilMoveString_ok (by rw [List.length_cons]; omega)]
  rfl

/-- The body of a literal, quotes chopped off. -/
theorem UtilMoveString_literal {wide : Bool} {body : CString}
    (h : (Rvalue.stringlit wide body).isEmptyString = false) :
    UtilMoveString (Token.stringlit wide body).stringVal.dropLast 1 =
      .ok (Rvalue.stringlit wide body).text := by
  have hdrop : (Token.stringlit wide body).stringVal.dropLast =
      (if wide then cstr "L" else []) ++ cstr "\"" ++ body :=
    List.dropLast_concat
  have hquote : (cstr "\"").length = 1 := by decide
  rw [hdrop]
  cases wide with
  | true =>
    have hwide : (cstr "L").length = 1 := by decide
    rw [UtilMoveString_ok (by simp only [if_true, List.length_append, hquote, hwide]; omega)]
    rfl
  | false =>
    cases body with
    | nil => cases h
    | cons c body =>
      rw [UtilMoveString_ok (by simp only [List.length_append, List.length_cons, hquote]; omega)]
      rfl

theorem Rvalue.reduce_eq {r : Rvalue} (pc : ParseCtrl) (h : r.isEmptyString = false) :
    r.reduce pc = .ok (pc.emit [r.instr pc.lineNo pc.pos pc.depth]) := by
  cases r with
  | intlit t => rfl
  | floatlit t => rfl
  | stringlit wide body =>
    simp only [Rvalue.reduce, UtilMoveString_literal h]
    rfl

theorem Hash.reduce_eq (h : Hash) (pc : ParseCtrl) :
    h.reduce pc = .ok (pc.emit [h.instr pc.lineNo pc.pos pc.depth]) := by
  have hchop : UtilMoveString (Token.scalar h.scalar).stringVal 1 = .ok h.scalar.text :=
    UtilMoveString_sigil 36 h.scalar
  simp only [Hash.reduce, hchop]
  rfl

theorem Operand.reduce_eq {o : Operand} (pc : ParseCtrl) (h : o.hasEmptyString = false) :
    o.reduce pc = .ok (pc.emit [o.instr pc.lineNo pc.pos pc.depth]) := by
  cases o with
  | hash k => exact k.reduce_eq pc
  | rvalue r => exact Rvalue.reduce_eq pc h

theorem Argument.reduce_eq {a : Argument} (pc : ParseCtrl) (h : a.hasEmptyString = false) :
    a.reduce pc = .ok (pc.emit [a.instr pc.lineNo pc.pos pc.depth]) := by
  cases a with
  | rvalue r => exact Rvalue.reduce_eq pc h
  | hashref n =>
    have hchop : UtilMoveString (Token.hash n).stringVal 1 = .ok n.text :=
      UtilMoveString_sigil 37 n
    simp only [Argument.reduce, hchop]
    rfl

theorem ArgumentList.reduce_eq {l : ArgumentList} (pc : ParseCtrl) (h : l.hasEmptyString = false) :
    l.reduce pc = .ok (pc.emit (l.layout pc.lineNo pc.pos pc.depth)) := by
  induction l with
  | initial a => exact Argument.reduce_eq pc h
  | successive l a ih =>
    obtain ⟨hl, ha⟩ := Bool.or_eq_false_iff.mp h
    simp only [ArgumentList.reduce, ih hl, bind, Except.bind]
    rw [Argument.reduce_eq _ ha]
    simp only [ParseCtrl.emit_emit, ParseCtrl.emit_lineNo, ParseCtrl.emit_pos,
      ParseCtrl.emit_depth, ArgumentList.layout_length]
    rfl

/-- The line of a test, and the line its actions leave behind. -/
def Test.lineNo : Test → Int
  | .compare _ _ _ n => n
  | .exists_ _ n => n

theorem Test.reduce_eq {t : Test} (pc : ParseCtrl) (h : t.hasEmptyString = false) :
    t.reduce pc = .ok ((pc.atLine t.lineNo).emit (t.code pc.pos pc.depth none)) := by
  cases t with
  | compare l op r lineNo =>
    obtain ⟨hl, hr⟩ := Bool.or_eq_false_iff.mp h
    simp only [Test.reduce, bind, Except.bind, Operand.reduce_eq _ hl, Operand.reduce_eq _ hr,
      pure, Except.pure, ParserPcodeEmit_eq, ParseCtrl.emit_emit]
    rfl
  | exists_ k lineNo =>
    simp only [Test.reduce, bind, Except.bind, Hash.reduce_eq, pure, Except.pure,
      ParserPcodeEmit_eq, ParseCtrl.emit_emit]
    rfl

mutual

/-- The line a statement's actions leave behind. -/
def Statement.lineNo : Statement → Int
  | .function _ _ n => n
  | .assignment _ _ n => n
  | .ifconst _ _ n => n
  | .ifelseconst _ _ _ n => n

def StatementList.lineNo : StatementList → Int
  | .initial s => s.lineNo
  | .successive _ s => s.lineNo

end

/-- Closing an `if` without `else` over freshly emitted code. -/
theorem ParseCtrl.closeIf_if {pc : ParseCtrl} (n : Int) (pushes body : List Pcode)
    (test last : Pcode) (ha : pc.Aligned) (hlast : last.isBlockEnd = true)
    (hnot : last.isTest = false) (htest : test.isTest = true)
    (hdepth : test.ctrlStructRefCount = last.ctrlStructRefCount)
    (hbody : ∀ p ∈ body, Nested last.ctrlStructRefCount p) :
    (((pc.nest 1).atLine n).emit (pushes ++ test :: (body ++ [last]))).closeIf .TOK_IF =
      .ok ((pc.atLine n).emit (pushes ++
        { test with skip := some (pc.pos + pushes.length + 1 + body.length) } ::
          (body ++ [last]))) := by
  have hcode : (((pc.nest 1).atLine n).emit (pushes ++ test :: (body ++ [last]))).pcodeHeader.code =
      (pc.pcodeHeader.code ++ pushes) ++ test :: (body ++ [last]) := by
    simp only [ParseCtrl.emit, ParseCtrl.nest, ParseCtrl.atLine, List.append_assoc]
  have hjumps := ParserSetJumps_if hcode hlast htest hdepth hnot
    (fun p hp => (hbody p hp).passes_test)
  have hlen : (pc.pcodeHeader.code ++ pushes).length = pc.pos + pushes.length := by
    rw [List.length_append, ParseCtrl.pos, ha]
  simp only [ParseCtrl.closeIf, hjumps, hlen, bind, Except.bind, pure, Except.pure]
  simp only [ParseCtrl.emit, ParseCtrl.nest, ParseCtrl.atLine, Int.add_neg_cancel_right,
    List.append_assoc, List.length_append, List.length_cons]

/-- Closing an `if` with an `else` over freshly emitted code. -/
theorem ParseCtrl.closeIf_else {pc : ParseCtrl} (n : Int) (pushes body elseBody : List Pcode)
    (test thenLast last : Pcode) (ha : pc.Aligned) (hlast : last.isBlockEnd = true)
    (hthen : thenLast.isBlockEnd = true) (htest : test.isTest = true)
    (hnot : thenLast.isTest = false)
    (hdepth : test.ctrlStructRefCount = last.ctrlStructRefCount)
    (hthenDepth : thenLast.ctrlStructRefCount = last.ctrlStructRefCount)
    (hbody : ∀ p ∈ body, Nested last.ctrlStructRefCount p)
    (helse : ∀ p ∈ elseBody, Nested last.ctrlStructRefCount p) :
    (((pc.nest 1).atLine n).emit
        (pushes ++ test :: (body ++ thenLast :: (elseBody ++ [last])))).closeIf .TOK_ELSE =
      .ok ((pc.atLine n).emit (pushes ++
        { test with skip := some (pc.pos + pushes.length + body.length + 2) } ::
          (body ++ { thenLast with
              skip := some (pc.pos + pushes.length + body.length + elseBody.length + 2) } ::
            (elseBody ++ [last])))) := by
  have hcode : (((pc.nest 1).atLine n).emit
        (pushes ++ test :: (body ++ thenLast :: (elseBody ++ [last])))).pcodeHeader.code =
      (pc.pcodeHeader.code ++ pushes) ++
        test :: (body ++ thenLast :: (elseBody ++ [last])) := by
    simp only [ParseCtrl.emit, ParseCtrl.nest, ParseCtrl.atLine, List.append_assoc]
  have hjumps := ParserSetJumps_else hcode hlast hthen htest hnot hdepth hthenDepth
    (fun p hp => (hbody p hp).passes_test) (fun p hp => (helse p hp).passes_blockEnd)
  have hlen : (pc.pcodeHeader.code ++ pushes).length = pc.pos + pushes.length := by
    rw [List.length_append, ParseCtrl.pos, ha]
  simp only [ParseCtrl.closeIf, hjumps, hlen, bind, Except.bind, pure, Except.pure]
  simp only [ParseCtrl.emit, ParseCtrl.nest, ParseCtrl.atLine, Int.add_neg_cancel_right,
    List.append_assoc, List.length_append, List.length_cons]

@[simp] theorem Test.instr_isTest (t : Test) (base : Nat) (depth : Int) (skip : Option Nat) :
    (t.instr base depth skip).isTest = true := by
  cases t <;> rfl

theorem Test.instr_skip (t : Test) (base : Nat) (depth : Int) (target : Nat) :
    { t.instr base depth none with skip := some target } = t.instr base depth (some target) := by
  cases t <;> rfl

theorem Test.code_append (t : Test) (base : Nat) (depth : Int) (skip : Option Nat)
    (rest : List Pcode) :
    t.code base depth skip ++ rest = t.pushes base depth ++ t.instr base depth skip :: rest := by
  simp only [Test.code, List.append_assoc, List.singleton_append]

/-- The open-block instruction and the code of its block are nested. -/
theorem nested_block (n : Int) (seq : Nat) (depth : Int) (block : StatementList) (base : Nat) :
    ∀ p ∈ blockBegin n seq depth :: block.layout base depth, Nested depth p := by
  intro p hp
  rcases List.mem_cons.mp hp with rfl | hp
  · exact ⟨Int.le_refl _, fun _ => ⟨rfl, rfl⟩⟩
  · exact block.layout_nested base depth p hp

/-- The actions of a list emit its layout. -/
def StatementList.Emits (l : StatementList) : Prop :=
  ∀ pc : ParseCtrl, pc.Aligned →
    l.reduce pc = .ok ((pc.atLine l.lineNo).emit (l.layout pc.pos pc.depth))

theorem ifconst_reduce {t : Test} {block : StatementList} (n : Int) {pc : ParseCtrl}
    (ha : pc.Aligned) (ht : t.hasEmptyString = false) (hb : block.Emits) :
    (Statement.ifconst t block n).reduce pc =
      .ok ((pc.atLine n).emit ((Statement.ifconst t block n).layout pc.pos pc.depth)) := by
  have htest := t.pushes_length pc.pos (pc.depth + 1)
  simp only [Statement.reduce, bind, Except.bind, Test.reduce_eq _ ht, ParseCtrl.atLine_emit,
    ParseCtrl.atLine_atLine, blockstart_eq, ParseCtrl.emit_emit]
  rw [hb _ (((ha.nest 1).atLine n).emit _)]
  simp only [ParseCtrl.atLine_emit, ParseCtrl.atLine_atLine, blockend_eq, ParseCtrl.emit_emit,
    ParseCtrl.emit_pos, ParseCtrl.emit_depth, ParseCtrl.emit_lineNo, ParseCtrl.atLine_pos,
    ParseCtrl.atLine_depth, ParseCtrl.atLine_lineNo, ParseCtrl.nest_pos, ParseCtrl.nest_depth,
    List.length_append, List.length_singleton, Test.code_length, StatementList.layout_length,
    ← Nat.add_assoc]
  have hclose := ParseCtrl.closeIf_if n (t.pushes pc.pos (pc.depth + 1))
    (blockBegin n (pc.pos + t.size) (pc.depth + 1) ::
      block.layout (pc.pos + t.size + 1) (pc.depth + 1))
    (t.instr pc.pos (pc.depth + 1) none)
    (blockEnd n (pc.pos + t.size + 1 + block.size) (pc.depth + 1) none)
    ha rfl rfl (t.instr_isTest ..) (t.instr_depth ..)
    (nested_block n _ _ block _)
  have htarget : pc.pos + (t.pushes pc.pos (pc.depth + 1)).length + 1 + (block.size + 1) =
      pc.pos + t.size + 1 + block.size := by omega
  rw [t.instr_skip] at hclose
  simp only [Statement.layout, t.code_append, List.append_assoc, List.cons_append,
    List.nil_append, List.length_cons, StatementList.layout_length] at hclose ⊢
  rw [hclose, htarget]

theorem ifelseconst_reduce {t : Test} {block elseblock : StatementList} (n : Int)
    {pc : ParseCtrl} (ha : pc.Aligned) (ht : t.hasEmptyString = false) (hb : block.Emits)
    (he : elseblock.Emits) :
    (Statement.ifelseconst t block elseblock n).reduce pc =
      .ok ((pc.atLine n).emit
        ((Statement.ifelseconst t block elseblock n).layout pc.pos pc.depth)) := by
  have htest := t.pushes_length pc.pos (pc.depth + 1)
  simp only [Statement.reduce, bind, Except.bind, Test.reduce_eq _ ht, ParseCtrl.atLine_emit,
    ParseCtrl.atLine_atLine, blockstart_eq, ParseCtrl.emit_emit]
  rw [hb _ (((ha.nest 1).atLine n).emit _)]
  simp only [ParseCtrl.atLine_emit, ParseCtrl.atLine_atLine, blockend_eq, ParseCtrl.emit_emit]
  rw [he _ (((ha.nest 1).atLine n).emit _)]
  simp only [ParseCtrl.atLine_emit, ParseCtrl.atLine_atLine, ParseCtrl.emit_emit,
    ParseCtrl.emit_pos, ParseCtrl.emit_depth, ParseCtrl.emit_lineNo, ParseCtrl.atLine_pos,
    ParseCtrl.atLine_depth, ParseCtrl.atLine_lineNo, ParseCtrl.nest_pos, ParseCtrl.nest_depth,
    List.length_append, List.length_singleton, Test.code_length, StatementList.layout_length,
    ← Nat.add_assoc]
  have hclose := ParseCtrl.closeIf_else n (t.pushes pc.pos (pc.depth + 1))
    (blockBegin n (pc.pos + t.size) (pc.depth + 1) ::
      block.layout (pc.pos + t.size + 1) (pc.depth + 1))
    (blockBegin n (pc.pos + t.size + 1 + block.size + 1) (pc.depth + 1) ::
      elseblock.layout (pc.pos + t.size + 1 + block.size + 1 + 1) (pc.depth + 1))
    (t.instr pc.pos (pc.depth + 1) none)
    (blockEnd n (pc.pos + t.size + 1 + block.size) (pc.depth + 1) none)
    (blockEnd n (pc.pos + t.size + 1 + block.size + 1 + 1 + elseblock.size) (pc.depth + 1) none)
    ha rfl rfl (t.instr_isTest ..) rfl (t.instr_depth ..) rfl
    (nested_block n _ _ block _) (nested_block n _ _ elseblock _)
  have htarget : pc.pos + (t.pushes pc.pos (pc.depth + 1)).length + (block.size + 1) + 2 =
      pc.pos + t.size + 1 + block.size + 1 := by omega
  have helseTarget : pc.pos + (t.pushes pc.pos (pc.depth + 1)).length + (block.size + 1) +
      (elseblock.size + 1) + 2 = pc.pos + t.size + 1 + block.size + 1 + 1 + elseblock.size := by
    omega
  rw [t.instr_skip] at hclose
  simp only [Statement.layout, t.code_append, List.append_assoc, List.cons_append,
    List.nil_append, List.length_cons, StatementList.layout_length] at hclose ⊢
  rw [hclose, htarget, helseTarget]
  rfl

mutual

/-- **The actions of a statement emit its layout.** -/
theorem Statement.reduce_eq_layout (s : Statement) (pc : ParseCtrl) (ha : pc.Aligned)
    (h : s.hasEmptyString = false) :
    s.reduce pc = .ok ((pc.atLine s.lineNo).emit (s.layout pc.pos pc.depth)) := by
  cases s with
  | function f args n =>
    simp only [Statement.reduce, bind, Except.bind, ArgumentList.reduce_eq _ h, pure, Except.pure,
      ParserPcodeEmit_eq, ParseCtrl.emit_emit, ParseCtrl.emit_pos, ArgumentList.layout_length]
    rfl
  | assignment lhs rhs n =>
    simp only [Statement.reduce, bind, Except.bind, Hash.reduce_eq, Operand.reduce_eq _ h, pure,
      Except.pure, ParserPcodeEmit_eq, ParseCtrl.emit_emit]
    rfl
  | ifconst t block n =>
    obtain ⟨ht, hb⟩ := Bool.or_eq_false_iff.mp h
    exact ifconst_reduce n ha ht fun pc ha => block.reduce_eq_layout pc ha hb
  | ifelseconst t block elseblock n =>
    obtain ⟨htb, he⟩ := Bool.or_eq_false_iff.mp h
    obtain ⟨ht, hb⟩ := Bool.or_eq_false_iff.mp htb
    exact ifelseconst_reduce n ha ht (fun pc ha => block.reduce_eq_layout pc ha hb)
      fun pc ha => elseblock.reduce_eq_layout pc ha he
termination_by structural s

theorem StatementList.reduce_eq_layout (l : StatementList) (pc : ParseCtrl) (ha : pc.Aligned)
    (h : l.hasEmptyString = false) :
    l.reduce pc = .ok ((pc.atLine l.lineNo).emit (l.layout pc.pos pc.depth)) := by
  cases l with
  | initial s => exact s.reduce_eq_layout pc ha h
  | successive l s =>
    obtain ⟨hl, hs⟩ := Bool.or_eq_false_iff.mp h
    simp only [StatementList.reduce, bind, Except.bind, l.reduce_eq_layout pc ha hl]
    rw [s.reduce_eq_layout _ ((ha.atLine _).emit _) hs]
    simp only [ParseCtrl.atLine_emit, ParseCtrl.atLine_atLine, ParseCtrl.emit_emit,
      ParseCtrl.emit_pos, ParseCtrl.emit_depth, ParseCtrl.atLine_pos, ParseCtrl.atLine_depth,
      StatementList.layout_length]
    rfl
termination_by structural l

end

/-! ## The actions return on no other tree -/

theorem Rvalue.reduce_returns {r : Rvalue} {pc pc' : ParseCtrl} (h : r.reduce pc = .ok pc') :
    r.isEmptyString = false := by
  rcases r with t | t | ⟨_ | _, _ | ⟨c, body⟩⟩ <;> first | rfl | cases h

theorem Operand.reduce_returns {o : Operand} {pc pc' : ParseCtrl} (h : o.reduce pc = .ok pc') :
    o.hasEmptyString = false := by
  cases o with
  | hash k => rfl
  | rvalue r => exact Rvalue.reduce_returns h

theorem Argument.reduce_returns {a : Argument} {pc pc' : ParseCtrl} (h : a.reduce pc = .ok pc') :
    a.hasEmptyString = false := by
  cases a with
  | rvalue r => exact Rvalue.reduce_returns h
  | hashref n => rfl

theorem ArgumentList.reduce_returns {l : ArgumentList} {pc pc' : ParseCtrl}
    (h : l.reduce pc = .ok pc') : l.hasEmptyString = false := by
  induction l generalizing pc' with
  | initial a => exact Argument.reduce_returns h
  | successive l a ih =>
    obtain ⟨pc₁, hl, ha⟩ := bind_ok h
    exact Bool.or_eq_false_iff.mpr ⟨ih hl, Argument.reduce_returns ha⟩

theorem Test.reduce_returns {t : Test} {pc pc' : ParseCtrl} (h : t.reduce pc = .ok pc') :
    t.hasEmptyString = false := by
  cases t with
  | compare l op r lineNo =>
    obtain ⟨pc₁, hl, h⟩ := bind_ok h
    obtain ⟨pc₂, hr, -⟩ := bind_ok h
    exact Bool.or_eq_false_iff.mpr ⟨Operand.reduce_returns hl, Operand.reduce_returns hr⟩
  | exists_ k lineNo => rfl

mutual

theorem Statement.reduce_returns (s : Statement) {pc pc' : ParseCtrl} (h : s.reduce pc = .ok pc') :
    s.hasEmptyString = false := by
  cases s with
  | function f args n =>
    obtain ⟨pc₁, hargs, -⟩ := bind_ok h
    exact ArgumentList.reduce_returns hargs
  | assignment lhs rhs n =>
    obtain ⟨pc₁, -, h⟩ := bind_ok h
    obtain ⟨pc₂, hrhs, -⟩ := bind_ok h
    exact Operand.reduce_returns hrhs
  | ifconst t block n =>
    obtain ⟨pc₁, ht, h⟩ := bind_ok h
    obtain ⟨pc₂, hblock, -⟩ := bind_ok h
    exact Bool.or_eq_false_iff.mpr ⟨Test.reduce_returns ht, block.reduce_returns hblock⟩
  | ifelseconst t block elseblock n =>
    obtain ⟨pc₁, ht, h⟩ := bind_ok h
    obtain ⟨pc₂, hblock, h⟩ := bind_ok h
    obtain ⟨pc₃, helse, -⟩ := bind_ok h
    exact Bool.or_eq_false_iff.mpr ⟨Bool.or_eq_false_iff.mpr
      ⟨Test.reduce_returns ht, block.reduce_returns hblock⟩, elseblock.reduce_returns helse⟩
termination_by structural s

/-- **Actions that return have met no empty string literal.** -/
theorem StatementList.reduce_returns (l : StatementList) {pc pc' : ParseCtrl}
    (h : l.reduce pc = .ok pc') : l.hasEmptyString = false := by
  cases l with
  | initial s => exact s.reduce_returns h
  | successive l s =>
    obtain ⟨pc₁, hl, hs⟩ := bind_ok h
    exact Bool.or_eq_false_iff.mpr ⟨l.reduce_returns hl, s.reduce_returns hs⟩
termination_by structural l

end

/-- The actions on a fresh control block return exactly when the tree has
no empty string literal, and then the code is the layout at position 0
and nesting 0. -/
theorem StatementList.reduce_zero (l : StatementList) (h : l.hasEmptyString = false) :
    l.reduce .zero = .ok ((ParseCtrl.zero.atLine l.lineNo).emit (l.layout 0 0)) :=
  l.reduce_eq_layout .zero rfl h

end XplEvent.Script
