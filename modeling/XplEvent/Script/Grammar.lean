import XplEvent.Script.Syntax

/-!
# Reading a derivation

The rules of `grammar.y` as functions that take tokens in: one for each
nonterminal, which decides by the next token alone and never takes one
back. What they read is derivable (`readScript_sound`) and what is
derivable they read (`readScript_yield`), so the grammar is unambiguous
(`StatementList.unlined_of_yield`): two trees with the same tokens differ
in line numbers at most. Derivability can be computed.

The lists of the grammar are left recursive: `readMoreArguments` and
`readMoreStatements` extend the list read so far.
-/

namespace XplEvent.Script

/-! ## Trees without their lines -/

def Test.unlined : Test → Test
  | .compare l op r _ => .compare l op r 0
  | .exists_ h _ => .exists_ h 0

mutual

def Statement.unlined : Statement → Statement
  | .function f args _ => .function f args 0
  | .assignment lhs rhs _ => .assignment lhs rhs 0
  | .ifconst t block _ => .ifconst t.unlined block.unlined 0
  | .ifelseconst t block elseblock _ => .ifelseconst t.unlined block.unlined elseblock.unlined 0

/-- The tree with every line number forgotten. -/
def StatementList.unlined : StatementList → StatementList
  | .initial s => .initial s.unlined
  | .successive l s => .successive l.unlined s.unlined

end

/-! ## The nonterminals -/

/-- The next token is `t`. -/
def expect (t : Token) : List Token → Option (List Token)
  | [] => none
  | u :: us => if t = u then some us else none

def readRvalue : List Token → Option (Rvalue × List Token)
  | .intlit text :: ts => some (.intlit text, ts)
  | .floatlit text :: ts => some (.floatlit text, ts)
  | .stringlit wide body :: ts => some (.stringlit wide body, ts)
  | _ => none

def readHash : List Token → Option (Hash × List Token)
  | .scalar name :: .obrace :: .bareword key :: .cbrace :: ts => some (⟨name, key⟩, ts)
  | _ => none

/-- Only a `hash` begins with a scalar. -/
def readOperand (ts : List Token) : Option (Operand × List Token) :=
  match ts with
  | .scalar _ :: _ => (readHash ts).map fun (h, ts) => (.hash h, ts)
  | _ => (readRvalue ts).map fun (r, ts) => (.rvalue r, ts)

def readArgument : List Token → Option (Argument × List Token)
  | .backslash :: .hash name :: ts => some (.hashref name, ts)
  | ts => (readRvalue ts).map fun (r, ts) => (.rvalue r, ts)

/-- The arguments behind the ones in `l`. -/
def readMoreArguments : Nat → ArgumentList → List Token → Option (ArgumentList × List Token)
  | 0, l, ts => some (l, ts)
  | fuel + 1, l, ts =>
    match ts with
    | .comma :: ts => do
      let (a, ts) ← readArgument ts
      readMoreArguments fuel (.successive l a) ts
    | ts => some (l, ts)

def readArguments (ts : List Token) : Option (ArgumentList × List Token) := do
  let (a, rest) ← readArgument ts
  readMoreArguments ts.length (.initial a) rest

def readTestop : List Token → Option (Testop × List Token)
  | .eqeq :: ts => some (.OPRT_NUMEQUALITY, ts)
  | .neq :: ts => some (.OPRT_NUMINEQUALITY, ts)
  | .ngt :: ts => some (.OPRT_NUMGTRTHAN, ts)
  | .nlt :: ts => some (.OPRT_NUMLESSTHAN, ts)
  | .nget :: ts => some (.OPRT_NUMGTREQTHAN, ts)
  | .nlet :: ts => some (.OPRT_NUMLESSEQTHAN, ts)
  | .seq :: ts => some (.OPRT_STREQUALITY, ts)
  | _ => none

def readTest : List Token → Option (Test × List Token)
  | .exists_ :: ts => do
    let (h, ts) ← readHash (← expect .oparen ts)
    return (.exists_ h 0, ← expect .cparen ts)
  | ts => do
    let (l, ts) ← readOperand ts
    let (op, ts) ← readTestop ts
    let (r, ts) ← readOperand ts
    return (.compare l op r 0, ts)

/-- A call of a built-in, behind its name. -/
def readCall (f : BuiltinFunction) (ts : List Token) : Option (Statement × List Token) := do
  let (args, ts) ← readArguments (← expect .oparen ts)
  return (.function f args 0, ← expect .semi (← expect .cparen ts))

def readAssignment (ts : List Token) : Option (Statement × List Token) := do
  let (lhs, ts) ← readHash ts
  let (rhs, ts) ← readOperand (← expect .equals ts)
  return (.assignment lhs rhs 0, ← expect .semi ts)

mutual

/-- An `if` is read with its `else`, if one follows. -/
def readStatement : Nat → List Token → Option (Statement × List Token)
  | 0, _ => none
  | fuel + 1, ts =>
    match ts with
    | .xplcmd :: ts => readCall .TOK_XPLCMD ts
    | .spawn :: ts => readCall .TOK_SPAWN ts
    | .if_ :: ts => do
      let (t, ts) ← readTest (← expect .oparen ts)
      let (block, ts) ← readStatements fuel (← expect .obrace (← expect .cparen ts))
      let ts ← expect .cbrace ts
      match ts with
      | .else_ :: ts => do
        let (elseblock, ts) ← readStatements fuel (← expect .obrace ts)
        return (.ifelseconst t block elseblock 0, ← expect .cbrace ts)
      | ts => return (.ifconst t block 0, ts)
    | ts => readAssignment ts

/-- The statements up to a closing brace or the end. -/
def readStatements : Nat → List Token → Option (StatementList × List Token)
  | 0, _ => none
  | fuel + 1, ts => do
    let (s, ts) ← readStatement fuel ts
    readMoreStatements fuel (.initial s) ts

/-- The statements behind the ones in `l`. -/
def readMoreStatements : Nat → StatementList → List Token → Option (StatementList × List Token)
  | 0, _, _ => none
  | fuel + 1, l, ts =>
    match ts with
    | [] => some (l, [])
    | .cbrace :: ts => some (l, .cbrace :: ts)
    | ts => do
      let (s, ts) ← readStatement fuel ts
      readMoreStatements fuel (.successive l s) ts

end

/-- A whole script. -/
def readScript (ts : List Token) : Option StatementList :=
  match readStatements (ts.length + 1) ts with
  | some (l, []) => some l
  | _ => none

/-! ## What is derivable is read -/

@[simp] theorem expect_cons (t : Token) (ts : List Token) : expect t (t :: ts) = some ts := if_pos rfl

theorem expect_eq_some {t : Token} {ts us : List Token} (h : expect t ts = some us) :
    ts = t :: us := by
  cases ts with
  | nil => cases h
  | cons u ts =>
    rw [expect] at h
    split at h
    · rename_i heq
      rw [heq, Option.some.inj h]
    · cases h

theorem readHash_yield (h : Hash) (ts : List Token) : readHash (h.yield ++ ts) = some (h, ts) := rfl

theorem readOperand_yield (o : Operand) (ts : List Token) :
    readOperand (o.yield ++ ts) = some (o, ts) := by
  rcases o with h | (_ | _ | _) <;> rfl

theorem readArgument_yield (a : Argument) (ts : List Token) :
    readArgument (a.yield ++ ts) = some (a, ts) := by
  rcases a with (_ | _ | _) | _ <;> rfl

theorem readTestop_yield (op : Testop) (ts : List Token) :
    readTestop (op.token :: ts) = some (op, ts) := by
  cases op <;> rfl

/-- What does not begin with `exists` is a comparison. -/
theorem readTest_operand (l : Operand) (ts : List Token) :
    readTest (l.yield ++ ts) = (do
      let (op, ts) ← readTestop ts
      let (r, ts) ← readOperand ts
      return (.compare l op r 0, ts)) := by
  rcases l with h | (_ | _ | _) <;> rfl

theorem readTest_yield (t : Test) (ts : List Token) :
    readTest (t.yield ++ ts) = some (t.unlined, ts) := by
  cases t with
  | compare l op r n =>
    rw [Test.yield, List.append_assoc, readTest_operand, List.cons_append]
    simp only [readTestop_yield, readOperand_yield, bind, Option.bind, pure, Test.unlined]
  | exists_ h n => rfl

/-- The list is read up to where it ends, and then goes on from there. -/
theorem readMoreArguments_yield (l : ArgumentList) (a : Argument) (fuel : Nat) (ts : List Token) :
    readMoreArguments (fuel + 1) l (.comma :: (a.yield ++ ts)) =
      readMoreArguments fuel (.successive l a) ts := by
  rw [readMoreArguments, readArgument_yield]
  rfl

/-- The number of arguments after the first. -/
def ArgumentList.commas : ArgumentList → Nat
  | .initial _ => 0
  | .successive l _ => l.commas + 1

theorem Argument.yield_pos (a : Argument) : 0 < a.yield.length := by
  rcases a with (_ | _ | _) | _ <;> exact Nat.zero_lt_succ _

theorem ArgumentList.commas_lt (l : ArgumentList) : l.commas < l.yield.length := by
  induction l with
  | initial a => exact a.yield_pos
  | successive l a ih =>
    rw [yield, List.length_append, List.length_cons, commas]
    omega

theorem readArguments_go (l : ArgumentList) (ts : List Token) (fuel : Nat) (hfuel : l.commas ≤ fuel) :
    (readArgument (l.yield ++ ts) >>= fun (a, rest) =>
      readMoreArguments fuel (.initial a) rest) = readMoreArguments (fuel - l.commas) l ts := by
  induction l generalizing ts fuel with
  | initial a =>
    rw [ArgumentList.yield, readArgument_yield]
    rfl
  | successive l a ih =>
    rw [ArgumentList.commas] at hfuel ⊢
    have hmore : fuel - l.commas = fuel - (l.commas + 1) + 1 := by omega
    rw [ArgumentList.yield, List.append_assoc, List.cons_append, ih _ fuel (by omega), hmore,
      readMoreArguments_yield]

theorem readArguments_yield (l : ArgumentList) (ts : List Token) :
    readArguments (l.yield ++ .cparen :: ts) = some (l, .cparen :: ts) := by
  have hlt := l.commas_lt
  have hlen : (l.yield ++ .cparen :: ts).length = l.yield.length + (ts.length + 1) :=
    List.length_append
  rw [readArguments, readArguments_go l _ _ (by omega)]
  cases fuel : (l.yield ++ .cparen :: ts).length - l.commas <;> rfl

theorem readCall_yield (f : BuiltinFunction) (args : ArgumentList) (ts : List Token) :
    readCall f (.oparen :: (args.yield ++ .cparen :: .semi :: ts)) =
      some (.function f args 0, ts) := by
  simp only [readCall, expect_cons, readArguments_yield, bind, Option.bind, pure]

/-- What does not begin with a keyword is an assignment. -/
theorem readStatement_hash (fuel : Nat) (h : Hash) (ts : List Token) :
    readStatement (fuel + 1) (h.yield ++ ts) = readAssignment (h.yield ++ ts) := rfl

theorem Statement.yield_pos (s : Statement) : 0 < s.yield.length := by
  cases s <;> exact Nat.zero_lt_succ _

/-- The number of statements after the first. -/
def StatementList.more : StatementList → Nat
  | .initial _ => 0
  | .successive l _ => l.more + 1

theorem StatementList.more_lt : (l : StatementList) → l.more < l.yield.length
  | .initial s => s.yield_pos
  | .successive l s => by
    have hl := l.more_lt
    have hs := s.yield_pos
    rw [yield, List.length_append, more]
    omega

/-- No statement begins with an `else`. -/
theorem Statement.head_yield (s : Statement) (ts : List Token) :
    (s.yield ++ ts).head? ≠ some .else_ := by
  cases s with
  | function f args n => cases f <;> exact fun h => by cases h
  | assignment lhs rhs n => exact fun h => by cases h
  | ifconst t block n => exact fun h => by cases h
  | ifelseconst t block elseblock n => exact fun h => by cases h

/-- Nor with a closing brace. -/
theorem readMoreStatements_yield (fuel : Nat) (l : StatementList) (s : Statement) (ts : List Token) :
    readMoreStatements (fuel + 1) l (s.yield ++ ts) =
      (readStatement fuel (s.yield ++ ts) >>= fun (s, ts) =>
        readMoreStatements fuel (.successive l s) ts) := by
  cases s with
  | function f args n => cases f <;> rfl
  | assignment lhs rhs n => rfl
  | ifconst t block n => rfl
  | ifelseconst t block elseblock n => rfl

/-- Behind the last statement there is fuel left. -/
theorem StatementList.fuel_left (l : StatementList) {fuel : Nat} (hfuel : l.yield.length < fuel) :
    ∃ k, fuel - 1 - l.more = k + 1 := by
  have hlt := l.more_lt
  exact ⟨fuel - 2 - l.more, by omega⟩

mutual

/-- A statement is read whole, where no `else` follows it. -/
theorem Statement.read (s : Statement) {fuel : Nat} {ts : List Token}
    (hfuel : s.yield.length ≤ fuel) (hts : ts.head? ≠ some .else_) :
    readStatement fuel (s.yield ++ ts) = some (s.unlined, ts) := by
  have hpos := Nat.lt_of_lt_of_le s.yield_pos hfuel
  obtain ⟨fuel, rfl⟩ := Nat.exists_eq_add_one_of_ne_zero (Nat.ne_of_gt hpos)
  cases s with
  | function f args n =>
    have hyield : (Statement.function f args n).yield ++ ts =
        f.token :: .oparen :: (args.yield ++ .cparen :: .semi :: ts) := by
      simp only [Statement.yield, List.append_assoc, List.cons_append, List.nil_append]
    rw [hyield]
    cases f with
    | TOK_XPLCMD => exact readCall_yield _ args ts
    | TOK_SPAWN => exact readCall_yield _ args ts
  | assignment lhs rhs n =>
    have hyield : (Statement.assignment lhs rhs n).yield ++ ts =
        lhs.yield ++ .equals :: (rhs.yield ++ .semi :: ts) := by
      simp only [Statement.yield, List.append_assoc, List.cons_append, List.nil_append]
    rw [hyield, readStatement_hash]
    simp only [readAssignment, readHash_yield, readOperand_yield, expect_cons, bind, Option.bind,
      pure, Statement.unlined]
  | ifconst t block n =>
    have hyield : (Statement.ifconst t block n).yield ++ ts = .if_ :: .oparen :: (t.yield ++
        .cparen :: .obrace :: (block.yield ++ .cbrace :: ts)) := by
      simp only [Statement.yield, List.append_assoc, List.cons_append, List.nil_append]
    have hlen : block.yield.length < fuel := by
      simp only [Statement.yield, List.length_append, List.length_cons, List.length_nil] at hfuel
      omega
    obtain ⟨k, hk⟩ := block.fuel_left hlen
    have hblock := block.read (.cbrace :: ts) hlen fun h => by cases h
    rw [hk, readMoreStatements] at hblock
    rw [hyield]
    simp only [readStatement, expect_cons, readTest_yield, hblock, bind, Option.bind]
    -- what follows is no `else`
    split
    · exact absurd rfl hts
    · rfl
  | ifelseconst t block elseblock n =>
    have hyield : (Statement.ifelseconst t block elseblock n).yield ++ ts =
        .if_ :: .oparen :: (t.yield ++ .cparen :: .obrace :: (block.yield ++ .cbrace :: .else_ ::
          .obrace :: (elseblock.yield ++ .cbrace :: ts))) := by
      simp only [Statement.yield, List.append_assoc, List.cons_append, List.nil_append]
    have hlen : block.yield.length < fuel ∧ elseblock.yield.length < fuel := by
      simp only [Statement.yield, List.length_append, List.length_cons, List.length_nil] at hfuel
      omega
    obtain ⟨k, hk⟩ := block.fuel_left hlen.1
    obtain ⟨m, hm⟩ := elseblock.fuel_left hlen.2
    have hblock := block.read (.cbrace :: .else_ :: .obrace :: (elseblock.yield ++ .cbrace :: ts))
      hlen.1 fun h => by cases h
    have helseblock := elseblock.read (.cbrace :: ts) hlen.2 fun h => by cases h
    rw [hk, readMoreStatements] at hblock
    rw [hm, readMoreStatements] at helseblock
    rw [hyield]
    simp only [readStatement, expect_cons, readTest_yield, hblock, helseblock, bind, Option.bind,
      pure, Statement.unlined]
termination_by structural s

/-- A list is read up to its end, and goes on from there. -/
theorem StatementList.read (l : StatementList) {fuel : Nat} (ts : List Token)
    (hfuel : l.yield.length < fuel) (hts : ts.head? ≠ some .else_) :
    readStatements fuel (l.yield ++ ts) =
      readMoreStatements (fuel - 1 - l.more) l.unlined ts := by
  obtain ⟨fuel, rfl⟩ := Nat.exists_eq_add_one_of_ne_zero (Nat.ne_of_gt (Nat.zero_lt_of_lt hfuel))
  cases l with
  | initial s =>
    rw [StatementList.yield, readStatements, s.read (Nat.le_of_lt_succ hfuel) hts]
    rfl
  | successive l s =>
    have hl := l.more_lt
    rw [StatementList.yield, List.length_append] at hfuel
    have hfuel' : l.yield.length < fuel + 1 := by omega
    have hread := l.read (s.yield ++ ts) hfuel' (s.head_yield ts)
    have hmore : fuel + 1 - 1 - l.more = fuel - (l.more + 1) + 1 := by omega
    rw [StatementList.yield, List.append_assoc, hread, hmore, readMoreStatements_yield,
      s.read (by omega) hts]
    rfl
termination_by structural l

end

/-- A block is read up to its closing brace. -/
theorem StatementList.read_block (l : StatementList) {fuel : Nat} (ts : List Token)
    (hfuel : l.yield.length < fuel) :
    readStatements fuel (l.yield ++ .cbrace :: ts) = some (l.unlined, .cbrace :: ts) := by
  obtain ⟨k, hk⟩ := l.fuel_left hfuel
  rw [l.read (.cbrace :: ts) hfuel (fun h => by cases h), hk, readMoreStatements]

theorem StatementList.read_end (l : StatementList) {fuel : Nat} (hfuel : l.yield.length < fuel) :
    readStatements fuel l.yield = some (l.unlined, []) := by
  have hread := l.read [] hfuel fun h => by cases h
  obtain ⟨k, hk⟩ := l.fuel_left hfuel
  rwa [hk, readMoreStatements, List.append_nil] at hread

/-- **A script is read back from its tokens**, but for its lines. -/
theorem readScript_yield (l : StatementList) : readScript l.yield = some l.unlined := by
  rw [readScript, l.read_end (Nat.lt_succ_self _)]

/-- **The grammar is unambiguous.** -/
theorem StatementList.unlined_of_yield {l l' : StatementList} (h : l.yield = l'.yield) :
    l.unlined = l'.unlined := by
  have hread := readScript_yield l
  rw [h, readScript_yield l'] at hread
  exact (Option.some.inj hread).symm

/-! ## What is read is derivable -/

theorem readRvalue_sound {ts us : List Token} {r : Rvalue} (h : readRvalue ts = some (r, us)) :
    ts = r.yield ++ us := by
  unfold readRvalue at h
  split at h <;> cases h <;> rfl

theorem readHash_sound {ts us : List Token} {k : Hash} (h : readHash ts = some (k, us)) :
    ts = k.yield ++ us := by
  unfold readHash at h
  split at h <;> cases h
  rfl

theorem readOperand_sound {ts us : List Token} {o : Operand} (h : readOperand ts = some (o, us)) :
    ts = o.yield ++ us := by
  unfold readOperand at h
  split at h
  · obtain ⟨⟨k, us'⟩, hk, heq⟩ := Option.map_eq_some_iff.mp h
    cases heq
    exact readHash_sound hk
  · obtain ⟨⟨r, us'⟩, hr, heq⟩ := Option.map_eq_some_iff.mp h
    cases heq
    exact readRvalue_sound hr

theorem readArgument_sound {ts us : List Token} {a : Argument}
    (h : readArgument ts = some (a, us)) : ts = a.yield ++ us := by
  unfold readArgument at h
  split at h
  · cases h
    rfl
  · obtain ⟨⟨r, us'⟩, hr, heq⟩ := Option.map_eq_some_iff.mp h
    cases heq
    exact readRvalue_sound hr

theorem readMoreArguments_sound {fuel : Nat} {l l' : ArgumentList} {ts us : List Token}
    (h : readMoreArguments fuel l ts = some (l', us)) : l.yield ++ ts = l'.yield ++ us := by
  induction fuel generalizing l ts with
  | zero =>
    cases h
    rfl
  | succ fuel ih =>
    unfold readMoreArguments at h
    split at h
    · obtain ⟨⟨a, ts'⟩, ha, hmore⟩ := Option.bind_eq_some_iff.mp h
      rw [readArgument_sound ha, ← ih hmore, ArgumentList.yield, List.append_assoc,
        List.cons_append]
    · cases h
      rfl

theorem readArguments_sound {ts us : List Token} {l : ArgumentList}
    (h : readArguments ts = some (l, us)) : ts = l.yield ++ us := by
  obtain ⟨⟨a, ts'⟩, ha, hmore⟩ := Option.bind_eq_some_iff.mp h
  rw [← readMoreArguments_sound hmore]
  exact readArgument_sound ha

theorem readTestop_sound {ts us : List Token} {op : Testop} (h : readTestop ts = some (op, us)) :
    ts = op.token :: us := by
  unfold readTestop at h
  split at h <;> cases h <;> rfl

theorem readTest_sound {ts us : List Token} {t : Test} (h : readTest ts = some (t, us)) :
    ts = t.yield ++ us := by
  unfold readTest at h
  split at h
  · obtain ⟨ts₁, hopen, h⟩ := Option.bind_eq_some_iff.mp h
    obtain ⟨⟨k, ts₂⟩, hk, h⟩ := Option.bind_eq_some_iff.mp h
    obtain ⟨ts₃, hclose, h⟩ := Option.bind_eq_some_iff.mp h
    cases h
    rw [expect_eq_some hopen, readHash_sound hk, expect_eq_some hclose]
    rfl
  · obtain ⟨⟨l, ts₁⟩, hl, h⟩ := Option.bind_eq_some_iff.mp h
    obtain ⟨⟨op, ts₂⟩, hop, h⟩ := Option.bind_eq_some_iff.mp h
    obtain ⟨⟨r, ts₃⟩, hr, h⟩ := Option.bind_eq_some_iff.mp h
    cases h
    rw [readOperand_sound hl, readTestop_sound hop, readOperand_sound hr, Test.yield,
      List.append_assoc, List.cons_append]

theorem readCall_sound {f : BuiltinFunction} {ts us : List Token} {s : Statement}
    (h : readCall f ts = some (s, us)) : f.token :: ts = s.yield ++ us := by
  obtain ⟨ts₁, hopen, h⟩ := Option.bind_eq_some_iff.mp h
  obtain ⟨⟨args, ts₂⟩, hargs, h⟩ := Option.bind_eq_some_iff.mp h
  obtain ⟨ts₃, hclose, h⟩ := Option.bind_eq_some_iff.mp h
  obtain ⟨ts₄, hsemi, h⟩ := Option.bind_eq_some_iff.mp h
  cases h
  rw [expect_eq_some hopen, readArguments_sound hargs, expect_eq_some hclose,
    expect_eq_some hsemi]
  simp only [Statement.yield, List.append_assoc, List.cons_append, List.nil_append]

theorem readAssignment_sound {ts us : List Token} {s : Statement}
    (h : readAssignment ts = some (s, us)) : ts = s.yield ++ us := by
  obtain ⟨⟨lhs, ts₁⟩, hlhs, h⟩ := Option.bind_eq_some_iff.mp h
  obtain ⟨ts₂, hequals, h⟩ := Option.bind_eq_some_iff.mp h
  obtain ⟨⟨rhs, ts₃⟩, hrhs, h⟩ := Option.bind_eq_some_iff.mp h
  obtain ⟨ts₄, hsemi, h⟩ := Option.bind_eq_some_iff.mp h
  cases h
  rw [readHash_sound hlhs, expect_eq_some hequals, readOperand_sound hrhs, expect_eq_some hsemi]
  simp only [Statement.yield, List.append_assoc, List.cons_append, List.nil_append]

/-- What is read is the front of the tokens, with any fuel. -/
theorem read_sound (fuel : Nat) :
    (∀ {ts us s}, readStatement fuel ts = some (s, us) → ts = s.yield ++ us) ∧
      (∀ {ts us l}, readStatements fuel ts = some (l, us) → ts = l.yield ++ us) ∧
      ∀ {l ts l' us}, readMoreStatements fuel l ts = some (l', us) →
        l.yield ++ ts = l'.yield ++ us := by
  induction fuel with
  | zero =>
    refine ⟨fun h => ?_, fun h => ?_, fun h => ?_⟩
    · cases h
    · cases h
    · cases h
  | succ fuel ih =>
    obtain ⟨hstatement, hlist, hmore⟩ := ih
    refine ⟨fun {ts us s} h => ?_, fun {ts us l} h => ?_, fun {l ts l' us} h => ?_⟩
    · unfold readStatement at h
      split at h
      · exact readCall_sound h
      · exact readCall_sound h
      · obtain ⟨ts₁, hopen, h⟩ := Option.bind_eq_some_iff.mp h
        obtain ⟨⟨t, ts₂⟩, ht, h⟩ := Option.bind_eq_some_iff.mp h
        obtain ⟨ts₃, hclose, h⟩ := Option.bind_eq_some_iff.mp h
        obtain ⟨ts₄, hstart, h⟩ := Option.bind_eq_some_iff.mp h
        obtain ⟨⟨block, ts₅⟩, hblock, h⟩ := Option.bind_eq_some_iff.mp h
        obtain ⟨ts₆, hend, h⟩ := Option.bind_eq_some_iff.mp h
        rw [expect_eq_some hopen, readTest_sound ht, expect_eq_some hclose,
          expect_eq_some hstart, hlist hblock, expect_eq_some hend]
        split at h
        · obtain ⟨ts₇, hstart', h⟩ := Option.bind_eq_some_iff.mp h
          obtain ⟨⟨elseblock, ts₈⟩, helseblock, h⟩ := Option.bind_eq_some_iff.mp h
          obtain ⟨ts₉, hend', h⟩ := Option.bind_eq_some_iff.mp h
          cases h
          rw [expect_eq_some hstart', hlist helseblock, expect_eq_some hend']
          simp only [Statement.yield, List.append_assoc, List.cons_append, List.nil_append]
        · cases h
          simp only [Statement.yield, List.append_assoc, List.cons_append, List.nil_append]
      · exact readAssignment_sound h
    · obtain ⟨⟨s, ts₁⟩, hs, h⟩ := Option.bind_eq_some_iff.mp h
      rw [← hmore h]
      exact hstatement hs
    · unfold readMoreStatements at h
      split at h
      · cases h
        rfl
      · cases h
        rfl
      · obtain ⟨⟨s, ts₁⟩, hs, h⟩ := Option.bind_eq_some_iff.mp h
        rw [← hmore h, hstatement hs, StatementList.yield, List.append_assoc]

theorem readScript_sound {ts : List Token} {l : StatementList} (h : readScript ts = some l) :
    l.yield = ts := by
  unfold readScript at h
  split at h
  · rename_i l' hread
    cases h
    have hsound := (read_sound _).2.1 hread
    rw [hsound, List.append_nil]
  · cases h

/-- **What is read is the one tree of the tokens**, with no lines. -/
theorem readScript_eq_some_iff {ts : List Token} {l : StatementList} :
    readScript ts = some l ↔ l.yield = ts ∧ l.unlined = l := by
  constructor
  · intro h
    obtain rfl := readScript_sound h
    rw [readScript_yield] at h
    exact ⟨rfl, Option.some.inj h⟩
  · rintro ⟨rfl, hl⟩
    rw [readScript_yield, hl]

/-! ## Derivability, computed -/

/-- **The scripts are the token sequences that are read**, and a bad
character on its own. -/
theorem derivable_iff {ts : List Token} :
    Derivable ts ↔ (readScript ts).isSome = true ∨ ∃ c, ts = [.badchar c] := by
  constructor
  · rintro ⟨l | c, rfl⟩
    · left
      rw [Start.yield, readScript_yield]
      rfl
    · exact .inr ⟨c, rfl⟩
  · rintro (h | ⟨c, rfl⟩)
    · obtain ⟨l, hl⟩ := Option.isSome_iff_exists.mp h
      exact ⟨.statementlist l, readScript_sound hl⟩
    · exact ⟨.badchar c, rfl⟩

end XplEvent.Script
