import XplEvent.Script.Exec

/-!
# Structural evaluation

What a script means, read off its syntax tree: an assignment stores the
value of its right side, a test picks one of two blocks, a list runs its
statements in order. There is no code, no jump and no argument register
here. Evaluation stops at the first undefined variable or non-numeric
operand of a numeric test; under `ignoreAssignErrors` an undefined
variable is only warned about, the assignment is left out and the test
counts as true.

The built-in functions are a parameter (`Builtin`): each is given its
arguments and the store.
-/

namespace XplEvent.Script

/-- The meaning of the built-in functions. -/
abbrev Builtin (σ : Type) := BuiltinFunction → List Arg → Store σ → Except Fault (Store σ)

/-- The characters a literal stands for. A wide string literal keeps its
opening quote: only one character is chopped off. -/
def Rvalue.text : Rvalue → CString
  | .intlit t => t
  | .floatlit t => t
  | .stringlit wide body => if wide then cstr "\"" ++ body else body

/-- The kind a literal is pushed with. -/
def Rvalue.kind : Rvalue → OperandCode
  | .intlit _ => .OPRD_INTLIT
  | .floatlit _ => .OPRD_FLOATLIT
  | .stringlit .. => .OPRD_STRINGLIT

/-- The name an undefined operand is reported under. -/
def Operand.name : Operand → CString
  | .hash h => h.scalar.text
  | .rvalue r => r.text

/-- An argument as a built-in function gets it. -/
def Argument.arg : Argument → Arg
  | .rvalue r => (r.kind, some r.text)
  | .hashref n => (.OPRD_HASHREF, some n.text)

def ArgumentList.args : ArgumentList → List Arg
  | .initial a => [a.arg]
  | .successive l a => l.args ++ [a.arg]

section

variable {D σ : Type} (env : Env D σ) (mode : Mode)

/-- The value of an operand, if it has one. -/
def Operand.eval (o : Operand) (st : Store σ) : Option CString × Store σ :=
  match o with
  | .hash h => ParserHashGetValue env mode st h.scalar.text h.key.text
  | .rvalue r => (some r.text, st)

/-- Reporting an undefined variable. -/
def Store.undefined (st : Store σ) (var : CString) (lineNo : Int) : Store σ :=
  if mode.ignoreAssignErrors then st else { st with failReason := some (.undefVar var lineNo) }

/-- Whether a test lets its block run. -/
def Test.eval (t : Test) (st : Store σ) : Bool × Store σ :=
  match t with
  | .compare l op r lineNo =>
    match l.eval env mode st with
    | (none, st) => (true, st.undefined mode l.name lineNo)
    | (some value, st) =>
      if op.rejects env value then (true, { st with failReason := some (.invalidNumeric lineNo) })
      else match r.eval env mode st with
        | (none, st) => (true, st.undefined mode r.name lineNo)
        | (some rvalue, st) =>
          if op.rejects env rvalue then
            (true, { st with failReason := some (.invalidNumeric lineNo) })
          else (op.holds env (env.UtilStod value) (env.UtilStod rvalue) value rvalue, st)
  | .exists_ h _ =>
    match (Operand.hash h).eval env mode st with
    | (value, st) => (value.isSome, st)

/-- An assignment. -/
def assign (lhs : Hash) (rhs : Operand) (lineNo : Int) (st : Store σ) : Store σ :=
  match rhs.eval env mode st with
  | (none, st) => st.undefined mode rhs.name lineNo
  | (some value, st) =>
    match ParserHashAddKeyValue env mode st lhs.scalar.text lhs.key.text value with
    | (.FAIL, st) => st.undefined mode lhs.scalar.text lineNo
    | (.PASS, st) => st

/-- A built-in call: noted in the trace, then carried out. -/
def call (builtin : Builtin σ) (f : BuiltinFunction) (args : List Arg) (st : Store σ) : Store σ :=
  match builtin f args { st with trace := st.trace ++ [.builtinCall f args] } with
  | .ok st => st
  | .error e => { st with fault := some e }

variable (builtin : Builtin σ)

mutual

def Statement.eval (s : Statement) (st : Store σ) : Store σ :=
  match s with
  | .function f args _ => call builtin f args.args st
  | .assignment lhs rhs lineNo => assign env mode lhs rhs lineNo st
  | .ifconst t block _ =>
    match t.eval env mode st with
    | (enter, st) => if !st.stopped && enter then block.eval st else st
  | .ifelseconst t block elseblock _ =>
    match t.eval env mode st with
    | (enter, st) =>
      if st.stopped then st else if enter then block.eval st else elseblock.eval st

def StatementList.eval (l : StatementList) (st : Store σ) : Store σ :=
  match l with
  | .initial s => s.eval st
  | .successive l s =>
    let st := l.eval st
    if st.stopped then st else s.eval st

end

/-! ## The calls that are reached -/

variable (P : BuiltinFunction → List Arg → Store σ → Prop)

mutual

/-- Every built-in call the evaluation reaches satisfies `P`, in the
store it is made in. -/
def Statement.EveryCall (s : Statement) (st : Store σ) : Prop :=
  match s with
  | .function f args _ => P f args.args st
  | .assignment .. => True
  | .ifconst t block _ =>
    match t.eval env mode st with
    | (enter, st) => st.stopped = false → enter = true → block.EveryCall st
  | .ifelseconst t block elseblock _ =>
    match t.eval env mode st with
    | (enter, st) => st.stopped = false →
      if enter then block.EveryCall st else elseblock.EveryCall st

def StatementList.EveryCall (l : StatementList) (st : Store σ) : Prop :=
  match l with
  | .initial s => s.EveryCall st
  | .successive l s =>
    l.EveryCall st ∧
      ((l.eval env mode builtin st).stopped = false → s.EveryCall (l.eval env mode builtin st))

end

end

end XplEvent.Script
