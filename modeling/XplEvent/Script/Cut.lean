import XplEvent.Script.Grammar
import XplEvent.Script.Layout

/-!
# Scripts that are cut off

A script that ends in the middle has no derivation, but the parser has run
actions by then: those of the rules that are complete when the input ends.
`Cut` is what there is of the tree. Its statements are complete but for the
last one, which has stopped in a block, in front of its `else` block, or
before its first block; in that last case the tokens are kept as they are
(`IsFront`), and `begun` says which rules they complete.

Every front of a script is one of a cut tree (`StatementList.exists_cut`),
and of one only, but for lines (`Cut.unlined_of_yield`).
-/

namespace XplEvent.Script

/-! ## Statements up to their first block -/

/-- A call, an assignment, or an `if` up to its first brace. -/
inductive Head : List Token → Prop
  | function (f : BuiltinFunction) (args : ArgumentList) :
    Head ([f.token, .oparen] ++ args.yield ++ [.cparen, .semi])
  | assignment (lhs : Hash) (rhs : Operand) : Head (lhs.yield ++ .equals :: rhs.yield ++ [.semi])
  | test (t : Test) : Head ([.if_, .oparen] ++ t.yield ++ [.cparen, .obrace])

/-- The tokens begin one, but are not all of it. -/
def IsFront (ts : List Token) : Prop := ∃ us, us ≠ [] ∧ Head (ts ++ us)

/-- What an instruction of a row of pushes stands for. -/
inductive Pushed
  | operand (o : Operand)
  | hashref (name : Bareword)

/-- The operands and arguments that are complete. -/
def pushed : List Token → List Pushed
  | .scalar name :: .obrace :: .bareword key :: .cbrace :: ts =>
    .operand (.hash ⟨name, key⟩) :: pushed ts
  | .backslash :: .hash name :: ts => .hashref name :: pushed ts
  | .intlit text :: ts => .operand (.rvalue (.intlit text)) :: pushed ts
  | .floatlit text :: ts => .operand (.rvalue (.floatlit text)) :: pushed ts
  | .stringlit wide body :: ts => .operand (.rvalue (.stringlit wide body)) :: pushed ts
  | _ :: ts => pushed ts
  | [] => []

/-- The rules that a front completes: a call or an assignment whose `;` is
missing, a test, or a row of pushes and no more. An `if` counts as nested
from its first token on. -/
inductive Begun
  | simple (s : Statement)
  | test (t : Test)
  | pushes (nested : Bool) (ps : List Pushed)

def begun (ts : List Token) : Begun :=
  match readStatement 1 (ts ++ [.semi]) with
  | some (s, _) => .simple s
  | none =>
    match ts with
    | .if_ :: ts =>
      match readTest (ts.drop 1) with
      | some (t, _) => .test t
      | none => .pushes true (pushed ts)
    | ts => .pushes false (pushed ts)

/-! ## Trees that are cut off -/

/-- What there is of the tree of a script that is cut off. -/
inductive Cut
  /-- Before the first block of a statement, or between two statements. -/
  | front (ts : List Token) (h : IsFront ts)
  /-- In the block of an `if`. -/
  | ifopen (t : Test) (rest : Cut) (lineNo : Int)
  /-- Behind an `else`. -/
  | else_ (t : Test) (block : StatementList) (lineNo : Int)
  /-- In the block of an `else`. -/
  | elseopen (t : Test) (block : StatementList) (rest : Cut) (lineNo : Int)
  /-- Behind a statement. -/
  | statement (s : Statement) (rest : Cut)

def Cut.yield : Cut → List Token
  | .front ts _ => ts
  | .ifopen t rest _ => [.if_, .oparen] ++ t.yield ++ [.cparen, .obrace] ++ rest.yield
  | .else_ t block _ =>
    [.if_, .oparen] ++ t.yield ++ [.cparen, .obrace] ++ block.yield ++ [.cbrace, .else_]
  | .elseopen t block rest _ =>
    [.if_, .oparen] ++ t.yield ++ [.cparen, .obrace] ++ block.yield ++
      [.cbrace, .else_, .obrace] ++ rest.yield
  | .statement s rest => s.yield ++ rest.yield

/-- The tree with every line number forgotten. -/
def Cut.unlined : Cut → Cut
  | .front ts h => .front ts h
  | .ifopen t rest _ => .ifopen t.unlined rest.unlined 0
  | .else_ t block _ => .else_ t.unlined block.unlined 0
  | .elseopen t block rest _ => .elseopen t.unlined block.unlined rest.unlined 0
  | .statement s rest => .statement s.unlined rest.unlined

/-! ## The actions that have run -/

def Pushed.reduce (p : Pushed) (pc : ParseCtrl) : Except Fault ParseCtrl :=
  match p with
  | .operand o => o.reduce pc
  | .hashref name => (Argument.hashref name).reduce pc

def Begun.reduce (b : Begun) (pc : ParseCtrl) : Except Fault ParseCtrl :=
  match b with
  | .simple s => s.reduce pc
  | .test t => t.reduce (pc.nest 1)
  | .pushes nested ps =>
    ps.foldlM (fun pc p => p.reduce pc) ((if nested then pc.nest 1 else pc).atLine 0)

/-- The actions up to the end of the input. What is in a block is reduced
with the block still open, and no jump is set. -/
def Cut.reduce (c : Cut) (pc : ParseCtrl) : Except Fault ParseCtrl :=
  match c with
  | .front ts _ => (begun ts).reduce pc
  | .ifopen t rest lineNo => do
    let pc ← t.reduce (pc.nest 1)
    rest.reduce (blockstart (pc.atLine lineNo))
  | .else_ t block lineNo => do
    let pc ← t.reduce (pc.nest 1)
    let pc ← block.reduce (blockstart (pc.atLine lineNo))
    return blockend (pc.atLine lineNo)
  | .elseopen t block rest lineNo => do
    let pc ← t.reduce (pc.nest 1)
    let pc ← block.reduce (blockstart (pc.atLine lineNo))
    rest.reduce (blockstart (blockend (pc.atLine lineNo)))
  | .statement s rest => do rest.reduce (← s.reduce pc)

/-! ## Every front of a script is that of a cut tree -/

theorem isFront_nil : IsFront [] :=
  ⟨_, List.cons_ne_nil _ _, .function .TOK_SPAWN (.initial (.rvalue (.intlit [])))⟩

/-- Nothing, where a statement may begin. -/
def Cut.nothing : Cut := .front [] isFront_nil

/-- The statements of a list, and then the rest. -/
def StatementList.cut : StatementList → Cut → Cut
  | .initial s, rest => .statement s rest
  | .successive l s, rest => l.cut (.statement s rest)

theorem StatementList.cut_yield :
    (l : StatementList) → (rest : Cut) → (l.cut rest).yield = l.yield ++ rest.yield
  | .initial _, _ => rfl
  | .successive l s, rest => by
    rw [cut, l.cut_yield, Cut.yield, yield, List.append_assoc]

/-- The front of a text is that of its beginning, or all of that and the
front of what follows. -/
theorem front_append {ts us vs ws : List Token} (h : ts ++ us = vs ++ ws) :
    (∃ us', us' ≠ [] ∧ vs = ts ++ us') ∨ ∃ ts', ts = vs ++ ts' ∧ ts' ++ us = ws := by
  rcases List.append_eq_append_iff.mp h with ⟨us', rfl, rfl⟩ | ⟨ts', rfl, rfl⟩
  · rcases us' with _ | ⟨u, us'⟩
    · exact .inr ⟨[], by rw [List.append_nil, List.append_nil], rfl⟩
    · exact .inl ⟨u :: us', List.cons_ne_nil u us', rfl⟩
  · exact .inr ⟨ts', rfl, rfl⟩

theorem front_concat {ts us vs : List Token} {t : Token} (h : ts ++ us = vs ++ [t]) (hus : us ≠ []) :
    ts ++ us.dropLast = vs := by
  rw [← List.dropLast_append_of_ne_nil hus, h, List.dropLast_concat]

mutual

/-- A front of a statement that is not all of it. -/
theorem Statement.exists_cut (s : Statement) {ts us : List Token} (h : ts ++ us = s.yield)
    (hus : us ≠ []) : ∃ c : Cut, c.yield = ts := by
  cases s with
  | function f args n => exact ⟨.front ts ⟨us, hus, h ▸ .function f args⟩, rfl⟩
  | assignment lhs rhs n => exact ⟨.front ts ⟨us, hus, h ▸ .assignment lhs rhs⟩, rfl⟩
  | ifconst t block n =>
    rw [Statement.yield, List.append_assoc] at h
    rcases front_append h with ⟨us', hus', hts⟩ | ⟨ts', rfl, hblock⟩
    · exact ⟨.front ts ⟨us', hus', hts ▸ .test t⟩, rfl⟩
    · obtain ⟨c, rfl⟩ := block.exists_cut (front_concat hblock hus)
      exact ⟨.ifopen t c n, rfl⟩
  | ifelseconst t block elseblock n =>
    have hyield : (Statement.ifelseconst t block elseblock n).yield =
        [.if_, .oparen] ++ t.yield ++ [.cparen, .obrace] ++ (block.yield ++
          ([.cbrace, .else_, .obrace] ++ (elseblock.yield ++ [.cbrace]))) := by
      simp only [Statement.yield, List.append_assoc]
    rw [hyield] at h
    rcases front_append h with ⟨us', hus', hts⟩ | ⟨ts₁, rfl, hblock⟩
    · exact ⟨.front ts ⟨us', hus', hts ▸ .test t⟩, rfl⟩
    rcases front_append hblock with ⟨us', -, hts⟩ | ⟨ts₂, rfl, helse⟩
    · obtain ⟨c, rfl⟩ := block.exists_cut hts.symm
      exact ⟨.ifopen t c n, rfl⟩
    rcases front_append helse with ⟨us', hus', hts⟩ | ⟨ts₃, rfl, helseblock⟩
    · rcases ts₂ with _ | ⟨t₁, _ | ⟨t₂, _ | ⟨t₃, ts₂⟩⟩⟩
      · obtain ⟨c, hc⟩ := block.exists_cut (List.append_nil _)
        exact ⟨.ifopen t c n, by rw [Cut.yield, hc, List.append_nil]⟩
      · cases hts
        refine ⟨.statement (.ifconst t block n) .nothing, ?_⟩
        simp only [Cut.yield, Statement.yield, Cut.nothing, List.append_assoc, List.append_nil]
      · cases hts
        refine ⟨.else_ t block n, ?_⟩
        simp only [Cut.yield, List.append_assoc]
      · simp only [List.cons_append, List.cons.injEq, List.nil_eq_append_iff] at hts
        exact absurd hts.2.2.2.2 hus'
    · obtain ⟨c, rfl⟩ := elseblock.exists_cut (front_concat helseblock hus)
      refine ⟨.elseopen t block c n, ?_⟩
      simp only [Cut.yield, List.append_assoc]
termination_by structural s

/-- **Every front of a statement list is that of a cut tree.** -/
theorem StatementList.exists_cut (l : StatementList) {ts us : List Token} (h : ts ++ us = l.yield) :
    ∃ c : Cut, c.yield = ts := by
  cases l with
  | initial s =>
    rcases us with _ | ⟨u, us⟩
    · refine ⟨.statement s .nothing, ?_⟩
      rw [List.append_nil] at h
      rw [Cut.yield, h]
      exact List.append_nil _
    · exact s.exists_cut h (List.cons_ne_nil u us)
  | successive l s =>
    rcases front_append h with ⟨us', -, hl⟩ | ⟨ts', rfl, hs⟩
    · exact l.exists_cut hl.symm
    · rcases us with _ | ⟨u, us⟩
      · refine ⟨l.cut (.statement s .nothing), ?_⟩
        rw [List.append_nil] at hs
        rw [l.cut_yield, Cut.yield, hs]
        exact congrArg (l.yield ++ ·) (List.append_nil _)
      · obtain ⟨c, rfl⟩ := s.exists_cut hs (List.cons_ne_nil u us)
        exact ⟨l.cut c, l.cut_yield c⟩
termination_by structural l

end

/-! ## The tree of a front -/

/-- A token that stands in an operand, an argument or a test. -/
def Token.isInner : Token → Bool
  | .if_ | .else_ | .semi | .xplcmd | .spawn | .badchar _ => false
  | _ => true

theorem Operand.yield_inner (o : Operand) : ∀ t ∈ o.yield, t.isInner = true := by
  rcases o with h | (_ | _ | _) <;>
    simp only [yield, Hash.yield, Rvalue.yield, List.forall_mem_cons, List.not_mem_nil, Token.isInner,
      false_implies, implies_true, and_self]

theorem Argument.yield_inner (a : Argument) : ∀ t ∈ a.yield, t.isInner = true := by
  rcases a with (_ | _ | _) | _ <;>
    simp only [yield, Rvalue.yield, List.forall_mem_cons, List.not_mem_nil, Token.isInner,
      false_implies, implies_true, and_self]

theorem ArgumentList.yield_inner (l : ArgumentList) : ∀ t ∈ l.yield, t.isInner = true := by
  induction l with
  | initial a => exact a.yield_inner
  | successive l a ih => exact List.forall_mem_append.mpr ⟨ih, List.forall_mem_cons.mpr ⟨rfl, a.yield_inner⟩⟩

theorem Test.yield_inner (t : Test) : ∀ u ∈ t.yield, u.isInner = true := by
  cases t with
  | compare l op r n =>
    have hop : op.token.isInner = true := by cases op <;> rfl
    exact List.forall_mem_append.mpr ⟨l.yield_inner, List.forall_mem_cons.mpr ⟨hop, r.yield_inner⟩⟩
  | exists_ h n =>
    simp only [yield, Hash.yield, List.cons_append, List.nil_append, List.forall_mem_cons,
      List.not_mem_nil, Token.isInner, false_implies, implies_true, and_self]

/-- There is no `else` before the first block of a statement. -/
theorem Head.no_else {ts : List Token} (h : Head ts) : .else_ ∉ ts := by
  have hinner : ∀ us : List Token, (∀ t ∈ us, t.isInner = true) → .else_ ∉ us :=
    fun us hus hmem => by cases hus _ hmem
  cases h with
  | function f args =>
    have hf : Token.else_ ≠ f.token := by cases f <;> exact Token.noConfusion
    simp only [List.mem_append, List.mem_cons, List.not_mem_nil, hf, reduceCtorEq,
      hinner _ args.yield_inner, or_self, not_false_eq_true]
  | assignment lhs rhs =>
    have hlhs := hinner _ (Operand.hash lhs).yield_inner
    simp only [Operand.yield] at hlhs
    simp only [List.mem_append, List.mem_cons, List.not_mem_nil, reduceCtorEq, hlhs,
      hinner _ rhs.yield_inner, or_self, not_false_eq_true]
  | test t =>
    simp only [List.mem_append, List.mem_cons, List.not_mem_nil, reduceCtorEq,
      hinner _ t.yield_inner, or_self, not_false_eq_true]

/-- A test is known from its tokens, whatever follows. -/
theorem Test.unlined_of_append {t t' : Test} {ts ts' : List Token}
    (h : t.yield ++ ts = t'.yield ++ ts') : t.unlined = t'.unlined ∧ ts = ts' := by
  have hread := readTest_yield t ts
  rw [h, readTest_yield t'] at hread
  obtain ⟨htest, hrest⟩ := Prod.mk.inj (Option.some.inj hread)
  exact ⟨htest.symm, hrest.symm⟩

/-- So is a statement, if no `else` follows. -/
theorem Statement.unlined_of_append {s s' : Statement} {ts ts' : List Token}
    (h : s.yield ++ ts = s'.yield ++ ts') (hts : ts.head? ≠ some .else_)
    (hts' : ts'.head? ≠ some .else_) : s.unlined = s'.unlined ∧ ts = ts' := by
  have hread := s.read (Nat.le_max_left _ s'.yield.length) hts
  rw [h, s'.read (Nat.le_max_right s.yield.length _) hts'] at hread
  obtain ⟨hstatement, hrest⟩ := Prod.mk.inj (Option.some.inj hread)
  exact ⟨hstatement.symm, hrest.symm⟩

/-- And so is a block. -/
theorem StatementList.unlined_of_append {l l' : StatementList} {ts ts' : List Token}
    (h : l.yield ++ .cbrace :: ts = l'.yield ++ .cbrace :: ts') :
    l.unlined = l'.unlined ∧ ts = ts' := by
  have hread := l.read_block ts (Nat.lt_succ_of_le (Nat.le_max_left _ l'.yield.length))
  rw [h, l'.read_block ts' (Nat.lt_succ_of_le (Nat.le_max_right l.yield.length _))] at hread
  obtain ⟨hblock, hrest⟩ := Prod.mk.inj (Option.some.inj hread)
  exact ⟨hblock.symm, (List.cons.inj hrest).2.symm⟩

/-- The tokens of an `if` up to its first brace, and what follows. -/
abbrev ifHead (t : Test) (ts : List Token) : List Token :=
  .if_ :: .oparen :: (t.yield ++ .cparen :: .obrace :: ts)

/-- A statement that begins as an `if` has its block closed. -/
theorem Statement.closes {s : Statement} {t : Test} {ts us : List Token}
    (h : ifHead t ts = s.yield ++ us) :
    ∃ (block : StatementList) (ts' : List Token), ts = block.yield ++ .cbrace :: ts' := by
  cases s with
  | function f args n => cases f <;> cases h
  | assignment lhs rhs n => cases h
  | ifconst t' block n =>
    simp only [Statement.yield, List.append_assoc, List.cons_append, List.nil_append,
      List.cons.injEq, true_and] at h
    have hrest := (Test.unlined_of_append h).2
    simp only [List.cons.injEq, true_and] at hrest
    exact ⟨block, us, hrest⟩
  | ifelseconst t' block elseblock n =>
    simp only [Statement.yield, List.append_assoc, List.cons_append, List.nil_append,
      List.cons.injEq, true_and] at h
    have hrest := (Test.unlined_of_append h).2
    simp only [List.cons.injEq, true_and] at hrest
    exact ⟨block, _, hrest⟩

/-- A statement is all of what it begins up to the first block. -/
theorem Head.not_append {ts us : List Token} {s : Statement} (h : Head ts) (hts : ts = s.yield ++ us) :
    us = [] := by
  have hus : us.head? ≠ some .else_ := by
    intro helse
    obtain ⟨us', rfl⟩ := List.head?_eq_some_iff.mp helse
    exact h.no_else (hts ▸ List.mem_append_right _ List.mem_cons_self)
  have hnil : ([] : List Token).head? ≠ some .else_ := fun h => by cases h
  cases h with
  | function f args =>
    have hs : (Statement.function f args 0).yield ++ [] = s.yield ++ us := by
      rw [List.append_nil, ← hts, Statement.yield]
    exact (Statement.unlined_of_append hs hnil hus).2.symm
  | assignment lhs rhs =>
    have hs : (Statement.assignment lhs rhs 0).yield ++ [] = s.yield ++ us := by
      rw [List.append_nil, ← hts, Statement.yield]
    exact (Statement.unlined_of_append hs hnil hus).2.symm
  | test t =>
    have hhead : ifHead t [] = s.yield ++ us := by
      rw [← hts]
      simp only [List.cons_append, List.nil_append]
    obtain ⟨block, ts', hblock⟩ := Statement.closes hhead
    exact absurd hblock.symm (List.append_ne_nil_of_right_ne_nil _ (List.cons_ne_nil _ _))

/-- So is the head of an `if`. -/
theorem Head.not_ifHead {ts us : List Token} {t : Test} (h : Head ts) (hts : ts = ifHead t us) :
    us = [] := by
  cases h with
  | function f args => cases f <;> cases hts
  | assignment lhs rhs => cases hts
  | test t' =>
    simp only [List.cons_append, List.nil_append, List.cons.injEq, true_and] at hts
    have hrest := (Test.unlined_of_append hts).2
    simp only [List.cons.injEq, true_and] at hrest
    exact hrest.symm

/-- A statement is not the front of a statement before its first block. -/
theorem IsFront.ne_append {ts us : List Token} (h : IsFront ts) (s : Statement) : ts ≠ s.yield ++ us := by
  rintro rfl
  obtain ⟨us', hus', hhead⟩ := h
  rw [List.append_assoc] at hhead
  exact hus' (List.append_eq_nil_iff.mp (hhead.not_append rfl)).2

/-- A statement in front of a list. -/
theorem StatementList.exists_cons (s : Statement) :
    (l : StatementList) → ∃ l' : StatementList, l'.yield = s.yield ++ l.yield
  | .initial s' => ⟨.successive (.initial s) s', rfl⟩
  | .successive l s' => by
    obtain ⟨l', hl'⟩ := exists_cons s l
    exact ⟨.successive l' s', by rw [yield, yield, hl', List.append_assoc]⟩

/-- A cut tree can be completed. -/
theorem Cut.completes (c : Cut) : ∃ (l : StatementList) (us : List Token), l.yield = c.yield ++ us := by
  induction c with
  | front ts h =>
    obtain ⟨us, -, hhead⟩ := h
    simp only [Cut.yield]
    generalize hts : ts ++ us = hs at hhead
    cases hhead with
    | function f args => exact ⟨.initial (.function f args 0), us, hts.symm⟩
    | assignment lhs rhs => exact ⟨.initial (.assignment lhs rhs 0), us, hts.symm⟩
    | test t =>
      have hone : StatementList := .initial (.function .TOK_SPAWN (.initial (.rvalue (.intlit []))) 0)
      refine ⟨.initial (.ifconst t hone 0), us ++ hone.yield ++ [.cbrace], ?_⟩
      rw [List.append_assoc us, ← List.append_assoc, hts, StatementList.yield, Statement.yield]
      simp only [List.append_assoc]
  | ifopen t rest n ih =>
    obtain ⟨l, us, hl⟩ := ih
    refine ⟨.initial (.ifconst t l n), us ++ [.cbrace], ?_⟩
    simp only [StatementList.yield, Statement.yield, Cut.yield, hl, List.append_assoc]
  | else_ t block n =>
    refine ⟨.initial (.ifelseconst t block block n), .obrace :: (block.yield ++ [.cbrace]), ?_⟩
    simp only [StatementList.yield, Statement.yield, Cut.yield, List.append_assoc, List.cons_append,
      List.nil_append]
  | elseopen t block rest n ih =>
    obtain ⟨l, us, hl⟩ := ih
    refine ⟨.initial (.ifelseconst t block l n), us ++ [.cbrace], ?_⟩
    simp only [StatementList.yield, Statement.yield, Cut.yield, hl, List.append_assoc]
  | statement s rest ih =>
    obtain ⟨l, us, hl⟩ := ih
    obtain ⟨l', hl'⟩ := l.exists_cons s
    exact ⟨l', us, by rw [hl', hl, Cut.yield, List.append_assoc]⟩

/-- No block is closed that is not opened. -/
theorem Cut.not_closed (c : Cut) (block : StatementList) (ts : List Token) :
    c.yield ≠ block.yield ++ .cbrace :: ts := by
  intro h
  obtain ⟨l, us, hl⟩ := c.completes
  rw [h, List.append_assoc, List.cons_append] at hl
  have hlen : block.yield.length < l.yield.length + 1 := by
    rw [hl, List.length_append]
    omega
  have hread := l.read_end (Nat.lt_succ_self _)
  rw [hl] at hlen hread
  rw [block.read_block _ hlen] at hread
  exact List.cons_ne_nil _ _ (Prod.mk.inj (Option.some.inj hread)).2

/-- What is behind a statement does not begin with an `else`. -/
theorem Cut.head_yield (c : Cut) : c.yield.head? ≠ some .else_ := by
  cases c with
  | front ts h =>
    obtain ⟨us, -, hhead⟩ := h
    intro helse
    obtain ⟨ts', rfl⟩ := List.head?_eq_some_iff.mp helse
    exact hhead.no_else List.mem_cons_self
  | statement s rest => exact s.head_yield rest.yield
  | _ => exact fun h => by cases h

/-- An `if` up to its first brace, and what follows. -/
def readIfHead : List Token → Option (Test × List Token)
  | .if_ :: ts => do
    let (t, ts) ← readTest (← expect .oparen ts)
    return (t, ← expect .obrace (← expect .cparen ts))
  | _ => none

theorem readIfHead_eq (t : Test) (ts : List Token) : readIfHead (ifHead t ts) = some (t.unlined, ts) := by
  simp only [readIfHead, expect_cons, readTest_yield, bind, Option.bind, pure]

theorem readIfHead_sound {ts us : List Token} {t : Test} (h : readIfHead ts = some (t, us)) :
    ts = ifHead t us := by
  unfold readIfHead at h
  split at h
  · obtain ⟨ts₁, hopen, h⟩ := Option.bind_eq_some_iff.mp h
    obtain ⟨⟨t', ts₂⟩, ht, h⟩ := Option.bind_eq_some_iff.mp h
    obtain ⟨ts₃, hclose, h⟩ := Option.bind_eq_some_iff.mp h
    obtain ⟨ts₄, hbrace, h⟩ := Option.bind_eq_some_iff.mp h
    cases h
    rw [expect_eq_some hopen, readTest_sound ht, expect_eq_some hclose, expect_eq_some hbrace]
  · cases h

/-- How a front begins: what a cut tree is made of on its outermost level. -/
inductive Opening
  | front (ts : List Token)
  | ifopen (t : Test) (rest : List Token)
  | else_ (t : Test) (block : StatementList)
  | elseopen (t : Test) (block : StatementList) (rest : List Token)
  | statement (s : Statement) (rest : List Token)

def Cut.opening : Cut → Opening
  | .front ts _ => .front ts
  | .ifopen t rest _ => .ifopen t.unlined rest.yield
  | .else_ t block _ => .else_ t.unlined block.unlined
  | .elseopen t block rest _ => .elseopen t.unlined block.unlined rest.yield
  | .statement s rest => .statement s.unlined rest.yield

def readOpening (ts : List Token) : Opening :=
  match readStatement (ts.length + 1) ts with
  | some (s, rest) => .statement s rest
  | none =>
    match readIfHead ts with
    | none => .front ts
    | some (t, rest) =>
      match readStatements (rest.length + 1) rest with
      | some (block, [.cbrace, .else_]) => .else_ t block
      | some (block, .cbrace :: .else_ :: .obrace :: rest) => .elseopen t block rest
      | _ => .ifopen t rest

/-- An `if` with an `else` is read as far as the `else` block. -/
theorem readStatement_else (t : Test) (block : StatementList) {fuel : Nat} (ts : List Token)
    (hfuel : block.yield.length < fuel) :
    readStatement (fuel + 1) (ifHead t (block.yield ++ .cbrace :: .else_ :: ts)) =
      (do
        let (elseblock, ts) ← readStatements fuel (← expect .obrace ts)
        return (.ifelseconst t.unlined block.unlined elseblock 0, ← expect .cbrace ts)) := by
  simp only [readStatement, expect_cons, readTest_yield, block.read_block _ hfuel, bind, Option.bind]

theorem StatementList.lt_ifHead (block : StatementList) (t : Test) (ts : List Token) :
    block.yield.length < (ifHead t (block.yield ++ ts)).length := by
  simp only [List.length_append, List.length_cons]
  omega

theorem Cut.yield_ifopen (t : Test) (rest : Cut) (n : Int) :
    (Cut.ifopen t rest n).yield = ifHead t rest.yield := by
  simp only [yield, List.append_assoc, List.cons_append, List.nil_append]

theorem Cut.yield_else (t : Test) (block : StatementList) (n : Int) :
    (Cut.else_ t block n).yield = ifHead t (block.yield ++ [.cbrace, .else_]) := by
  simp only [yield, List.append_assoc, List.cons_append, List.nil_append]

theorem Cut.yield_elseopen (t : Test) (block : StatementList) (rest : Cut) (n : Int) :
    (Cut.elseopen t block rest n).yield =
      ifHead t (block.yield ++ .cbrace :: .else_ :: .obrace :: rest.yield) := by
  simp only [yield, List.append_assoc, List.cons_append, List.nil_append]

theorem Cut.readOpening_yield (c : Cut) : readOpening c.yield = c.opening := by
  cases c with
  | front ts h =>
    have hstatement : readStatement (ts.length + 1) ts = none := by
      refine Option.eq_none_iff_forall_ne_some.mpr fun read hread => ?_
      exact h.ne_append read.1 ((read_sound _).1 hread)
    have hhead : readIfHead ts = none := by
      refine Option.eq_none_iff_forall_ne_some.mpr fun read hread => ?_
      obtain ⟨t, us⟩ := read
      obtain rfl := readIfHead_sound hread
      obtain ⟨us', hus', hhead⟩ := h
      have hempty : us ++ us' = [] := hhead.not_ifHead (t := t) (by
        simp only [List.cons_append, List.append_assoc])
      exact hus' (List.append_eq_nil_iff.mp hempty).2
    simp only [readOpening, yield, hstatement, hhead, opening]
  | ifopen t rest n =>
    rw [Cut.yield_ifopen, readOpening, readIfHead_eq]
    have hstatement : ∀ fuel, readStatement fuel (ifHead t rest.yield) = none := by
      intro fuel
      refine Option.eq_none_iff_forall_ne_some.mpr fun read hread => ?_
      obtain ⟨block, ts', hblock⟩ := Statement.closes ((read_sound _).1 hread)
      exact rest.not_closed block ts' hblock
    simp only [hstatement]
    -- in the block, none is closed
    split
    · rename_i block hread
      exact absurd ((read_sound _).2.1 hread) (rest.not_closed _ _)
    · rename_i block rest' hread
      exact absurd ((read_sound _).2.1 hread) (rest.not_closed _ _)
    · rfl
  | else_ t block n =>
    have hlen : block.yield.length < (block.yield ++ [Token.cbrace, .else_]).length + 1 := by
      rw [List.length_append]
      omega
    have hstatement : readStatement ((ifHead t (block.yield ++ [.cbrace, .else_])).length + 1)
        (ifHead t (block.yield ++ [.cbrace, .else_])) = none := by
      rw [readStatement_else t block [] (block.lt_ifHead t _)]
      rfl
    rw [Cut.yield_else, readOpening, hstatement, readIfHead_eq]
    simp only [block.read_block [.else_] hlen, opening]
  | elseopen t block rest n =>
    have hlen : block.yield.length <
        (block.yield ++ .cbrace :: .else_ :: .obrace :: rest.yield).length + 1 := by
      rw [List.length_append]
      omega
    have hstatement : ∀ fuel, block.yield.length < fuel → readStatement (fuel + 1)
        (ifHead t (block.yield ++ .cbrace :: .else_ :: .obrace :: rest.yield)) = none := by
      intro fuel hfuel
      rw [readStatement_else t block _ hfuel]
      refine Option.eq_none_iff_forall_ne_some.mpr fun read hread => ?_
      -- the block of the `else` is not closed
      obtain ⟨ts₀, hopen, hread⟩ := Option.bind_eq_some_iff.mp hread
      cases expect_eq_some hopen
      obtain ⟨⟨elseblock, ts₁⟩, helse, hread⟩ := Option.bind_eq_some_iff.mp hread
      obtain ⟨ts₂, hclose, -⟩ := Option.bind_eq_some_iff.mp hread
      have hyield := (read_sound _).2.1 helse
      rw [expect_eq_some hclose] at hyield
      exact rest.not_closed elseblock ts₂ hyield
    rw [Cut.yield_elseopen, readOpening, hstatement _ (block.lt_ifHead t _), readIfHead_eq]
    simp only [block.read_block _ hlen, opening]
  | statement s rest =>
    have hlen : s.yield.length ≤ (s.yield ++ rest.yield).length + 1 := by
      rw [List.length_append]
      omega
    simp only [readOpening, yield, s.read hlen rest.head_yield, opening]

theorem Cut.opening_of_yield {c c' : Cut} (h : c.yield = c'.yield) : c.opening = c'.opening := by
  rw [← c.readOpening_yield, h, c'.readOpening_yield]

/-- **A front is that of one cut tree only**, but for lines. -/
theorem Cut.unlined_of_yield {c c' : Cut} (h : c.yield = c'.yield) : c.unlined = c'.unlined := by
  have hopening := c.opening_of_yield h
  induction c generalizing c' with
  | front ts hts =>
    cases c' <;> cases hopening
    rfl
  | ifopen t rest n ih =>
    cases c' with
    | ifopen t' rest' n' =>
      obtain ⟨ht, hrest⟩ := Opening.ifopen.inj hopening
      rw [unlined, unlined, ht, ih hrest (rest.opening_of_yield hrest)]
    | _ => cases hopening
  | else_ t block n =>
    cases c' with
    | else_ t' block' n' =>
      obtain ⟨ht, hblock⟩ := Opening.else_.inj hopening
      rw [unlined, unlined, ht, hblock]
    | _ => cases hopening
  | elseopen t block rest n ih =>
    cases c' with
    | elseopen t' block' rest' n' =>
      obtain ⟨ht, hblock, hrest⟩ := Opening.elseopen.inj hopening
      rw [unlined, unlined, ht, hblock, ih hrest (rest.opening_of_yield hrest)]
    | _ => cases hopening
  | statement s rest ih =>
    cases c' with
    | statement s' rest' =>
      obtain ⟨hs, hrest⟩ := Opening.statement.inj hopening
      rw [unlined, unlined, hs, ih hrest (rest.opening_of_yield hrest)]
    | _ => cases hopening

end XplEvent.Script
