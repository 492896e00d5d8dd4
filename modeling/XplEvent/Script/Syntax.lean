import XplEvent.Base

/-!
# The script language — tokens and syntax trees

`lex.l` turns a script into tokens and `grammar.y` says which sequences
of them are scripts. Each rule of the grammar that carries a semantic
action, or that a later module has to tell apart, is a constructor here;
`yield` reads a tree back as the tokens it stands for, so that
`Start.Derives` is derivability from the start symbol.

The lists of the grammar are left recursive, and so are the trees: the
actions of a list run on its front part first.

A token whose text the lexer delimits carries only the part that varies.
A bareword has at least one character, so a `SCALAR` or `HASH` token has
at least two, which is what the chopping of the sigil relies on.

Statements and tests carry one line number each, which their actions
stamp the code with. The parser stamps each instruction with the line of
the token it is at when the action runs, and which token that is depends on
the generated tables; so what is asked of it forgets the lines
(`Pcode.unlined`).
-/

namespace XplEvent.Script

/-- The text of a `BAREWORD` token. -/
structure Bareword where
  text : CString
  nonempty : text ≠ []
deriving DecidableEq

/-- The tokens of `lex.l`. The name after a sigil, the digits of a number
and the body of a quoted string vary; `wide` records the `L` that may
stand before the opening quote. -/
inductive Token
  | nget | nlet | eqeq | neq | oparen | cparen | obrace | cbrace | equals
  | semi | comma | backslash | ngt | nlt | seq | xplcmd | spawn
  | if_ | else_ | exists_
  | scalar (name : Bareword)
  | hash (name : Bareword)
  | bareword (name : Bareword)
  | floatlit (text : CString)
  | intlit (text : CString)
  | stringlit (wide : Bool) (body : CString)
  | badchar (c : CChar)
deriving DecidableEq

/-- `yytext` of the tokens whose text a semantic action uses. -/
def Token.stringVal : Token → CString
  | .xplcmd => cstr "xplcmd"
  | .spawn => cstr "spawn"
  | .scalar n => cstr "$" ++ n.text
  | .hash n => cstr "%" ++ n.text
  | .bareword n => n.text
  | .floatlit t => t
  | .intlit t => t
  | .stringlit wide body => (if wide then cstr "L" else []) ++ cstr "\"" ++ body ++ cstr "\""
  | _ => []

/-- `yytext`: the text of a token. -/
def Token.yytext : Token → CString
  | .nget => cstr ">="
  | .nlet => cstr "<="
  | .eqeq => cstr "=="
  | .neq => cstr "!="
  | .oparen => cstr "("
  | .cparen => cstr ")"
  | .obrace => cstr "\x7b"
  | .cbrace => cstr "\x7d"
  | .equals => cstr "="
  | .semi => cstr ";"
  | .comma => cstr ","
  | .backslash => cstr "\\"
  | .ngt => cstr ">"
  | .nlt => cstr "<"
  | .seq => cstr "eq"
  | .xplcmd => cstr "xplcmd"
  | .spawn => cstr "spawn"
  | .if_ => cstr "if"
  | .else_ => cstr "else"
  | .exists_ => cstr "exists"
  | .scalar n => cstr "$" ++ n.text
  | .hash n => cstr "%" ++ n.text
  | .bareword n => n.text
  | .floatlit text => text
  | .intlit text => text
  | .stringlit wide body => (Token.stringlit wide body).stringVal
  | .badchar c => [c]

/-- `builtinFunction`: the two built-in functions, by token id. -/
inductive BuiltinFunction
  | TOK_XPLCMD
  | TOK_SPAWN
deriving DecidableEq, Repr

/-- The keyword token of a built-in function. -/
def BuiltinFunction.token : BuiltinFunction → Token
  | .TOK_XPLCMD => .xplcmd
  | .TOK_SPAWN => .spawn

/-- `rvalue ::= INTLIT`, `FLOATLIT` and `STRINGLIT`. -/
inductive Rvalue
  | intlit (text : CString)
  | floatlit (text : CString)
  | stringlit (wide : Bool) (body : CString)
deriving DecidableEq

def Rvalue.yield : Rvalue → List Token
  | .intlit t => [.intlit t]
  | .floatlit t => [.floatlit t]
  | .stringlit w b => [.stringlit w b]

/-- `hash ::= SCALAR OBRACE BAREWORD CBRACE`. -/
structure Hash where
  scalar : Bareword
  key : Bareword
deriving DecidableEq

def Hash.yield (h : Hash) : List Token :=
  [.scalar h.scalar, .obrace, .bareword h.key, .cbrace]

/-- Either side of a test and the right side of an assignment: the
grammar spells the combinations of `hash` and `rvalue` out. -/
inductive Operand
  | hash (h : Hash)
  | rvalue (r : Rvalue)
deriving DecidableEq

def Operand.yield : Operand → List Token
  | .hash h => h.yield
  | .rvalue r => r.yield

/-- `argument ::= rvalue` and `argument ::= BACKSLASH HASH`. -/
inductive Argument
  | rvalue (r : Rvalue)
  | hashref (name : Bareword)
deriving DecidableEq

def Argument.yield : Argument → List Token
  | .rvalue r => r.yield
  | .hashref n => [.backslash, .hash n]

/-- `argumentlist`. -/
inductive ArgumentList
  | initial (a : Argument)
  | successive (l : ArgumentList) (a : Argument)
deriving DecidableEq

def ArgumentList.yield : ArgumentList → List Token
  | .initial a => a.yield
  | .successive l a => l.yield ++ .comma :: a.yield

/-- `testop`, by the operand its action stores. -/
inductive Testop
  | OPRT_NUMEQUALITY
  | OPRT_NUMINEQUALITY
  | OPRT_NUMGTRTHAN
  | OPRT_NUMLESSTHAN
  | OPRT_NUMGTREQTHAN
  | OPRT_NUMLESSEQTHAN
  | OPRT_STREQUALITY
deriving DecidableEq, Repr

def Testop.token : Testop → Token
  | .OPRT_NUMEQUALITY => .eqeq
  | .OPRT_NUMINEQUALITY => .neq
  | .OPRT_NUMGTRTHAN => .ngt
  | .OPRT_NUMLESSTHAN => .nlt
  | .OPRT_NUMGTREQTHAN => .nget
  | .OPRT_NUMLESSEQTHAN => .nlet
  | .OPRT_STREQUALITY => .seq

/-- The annotation a `testop` action attaches to its token. -/
def Testop.anno : Testop → CString
  | .OPRT_NUMEQUALITY => cstr "Num eq."
  | .OPRT_NUMINEQUALITY => cstr "Num ineq."
  | .OPRT_NUMGTRTHAN => cstr "Num gtr. than"
  | .OPRT_NUMLESSTHAN => cstr "Num less than"
  | .OPRT_NUMGTREQTHAN => cstr "Num gtr. eq. than"
  | .OPRT_NUMLESSEQTHAN => cstr "Num less eq. than"
  | .OPRT_STREQUALITY => cstr "String eq."

/-- `test`. -/
inductive Test
  | compare (left : Operand) (op : Testop) (right : Operand) (lineNo : Int)
  | exists_ (h : Hash) (lineNo : Int)
deriving DecidableEq

def Test.yield : Test → List Token
  | .compare l op r _ => l.yield ++ op.token :: r.yield
  | .exists_ h _ => [.exists_, .oparen] ++ h.yield ++ [.cparen]

mutual

/-- `statement`. A block is the statement list between its braces. -/
inductive Statement
  | function (f : BuiltinFunction) (args : ArgumentList) (lineNo : Int)
  | assignment (lhs : Hash) (rhs : Operand) (lineNo : Int)
  | ifconst (t : Test) (block : StatementList) (lineNo : Int)
  | ifelseconst (t : Test) (block : StatementList) (elseblock : StatementList) (lineNo : Int)

/-- `statementlist`. -/
inductive StatementList
  | initial (s : Statement)
  | successive (l : StatementList) (s : Statement)

end

mutual

def Statement.yield : Statement → List Token
  | .function f args _ => [f.token, .oparen] ++ args.yield ++ [.cparen, .semi]
  | .assignment lhs rhs _ => lhs.yield ++ .equals :: rhs.yield ++ [.semi]
  | .ifconst t block _ =>
    [.if_, .oparen] ++ t.yield ++ [.cparen, .obrace] ++ block.yield ++ [.cbrace]
  | .ifelseconst t block elseblock _ =>
    [.if_, .oparen] ++ t.yield ++ [.cparen, .obrace] ++ block.yield ++
      [.cbrace, .else_, .obrace] ++ elseblock.yield ++ [.cbrace]

def StatementList.yield : StatementList → List Token
  | .initial s => s.yield
  | .successive l s => l.yield ++ s.yield

end

/-- `start`: a statement list, or one bad character on its own. -/
inductive Start
  | statementlist (l : StatementList)
  | badchar (c : CChar)

def Start.yield : Start → List Token
  | .statementlist l => l.yield
  | .badchar c => [.badchar c]

/-- Derivability from the start symbol. -/
def Derivable (ts : List Token) : Prop := ∃ t : Start, t.yield = ts

/-- Some continuation of the tokens is derivable: the parser has seen no
token that cannot continue a derivation. -/
def Viable (ts : List Token) : Prop := ∃ us, Derivable (ts ++ us)

end XplEvent.Script
