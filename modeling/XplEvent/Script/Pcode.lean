import XplEvent.Script.Syntax

/-!
# P-code — emission and jump patching

The instruction list a parse builds (`ParserPcodeEmit`), the skip
pointers `ParserSetJumps` installs in it, and the semantic actions of
`grammar.y` that call the two.

The doubly linked list of `pcode_s` is a Lean list from `head` to
`tail`; a pointer to an instruction is its position, so `prev` is the
position before and `next` the one after. The header `pcheader_s` is
split: `PcodeHeader` holds the fields a parse writes, the run-time
fields are in `XplEvent.Script.Exec`.

`reduce` on a tree runs the actions of its rules in the order an LR
parser reduces them, children first and from the left. It stamps the code
of a statement with one line.
-/

namespace XplEvent.Script

/-- `opType_t`. -/
inductive OpType
  | OP_NOP | OP_PUSH | OP_ASSIGN | OP_FUNC | OP_BLOCK | OP_IF | OP_TEST2 | OP_EXISTS
deriving DecidableEq, Repr

/-- The `operand` of an instruction. Its meaning depends on the opcode:
a push kind, a test, a block edge, a built-in's token id, or nothing. -/
inductive OperandCode
  | none
  | OPRD_STRINGLIT | OPRD_INTLIT | OPRD_FLOATLIT | OPRD_HASHKV | OPRD_HASHREF
  | test (op : Testop)
  | OPRB_BEGIN | OPRB_END
  | token (f : BuiltinFunction)
deriving DecidableEq, Repr

/-- `pcode_s`, without its magic number and the unused `datatype`. -/
structure Pcode where
  opcode : OpType
  operand : OperandCode
  lineNo : Int
  seq : Nat
  ctrlStructRefCount : Int
  data1 : Option CString
  data2 : Option CString
  skip : Option Nat
deriving DecidableEq

/-- The parse-time fields of `pcheader_s`. -/
structure PcodeHeader where
  code : List Pcode
  ctrlStructRefCount : Int
  seq : Nat
deriving DecidableEq

/-- An instruction with its line forgotten. -/
def Pcode.unlined (p : Pcode) : Pcode := { p with lineNo := 0 }

/-- A header with the lines of its code forgotten. -/
def PcodeHeader.unlined (ph : PcodeHeader) : PcodeHeader :=
  { ph with code := ph.code.map Pcode.unlined }

/-- Why a script was given up: every text a `failReason` can hold. -/
inductive FailReason
  | syntaxError (lineNo : Int)
  | undefVar (var : CString) (lineNo : Int)
  | invalidNumeric (lineNo : Int)
  | spawnArgs (pushCount : Nat)
  | spawnFailed (command : CString)
  | xplcmdArgs (pushCount : Nat)
  | badTag (tag : CString)
  | cantOpen (file : CString) (strerror : CString)
deriving DecidableEq

def FailReason.text : FailReason → CString
  | .syntaxError n => cstr "Syntax error on or near line: " ++ cstr (toString n)
  | .undefVar v n =>
    cstr "Variable '" ++ v ++ cstr "' undefined on line number " ++ cstr (toString n)
  | .invalidNumeric n => cstr "Invalid numeric value on line " ++ cstr (toString n)
  | .spawnArgs n =>
    cstr "Incorrect number of arguments passed to spawn, requires 1, got " ++ cstr (toString n)
  | .spawnFailed c => cstr "Spawn " ++ c ++ cstr " failed"
  | .xplcmdArgs n =>
    cstr "Incorrect number of arguments passed to xplcmd, requires 4, got " ++ cstr (toString n)
  | .badTag t => cstr "Bad xPL Tag: " ++ t
  | .cantOpen f e => cstr "Can't open file: \"" ++ f ++ cstr "\". " ++ e

/-- An `int` as a `short` keeps it. -/
def toShort (n : Int) : Int := n.bmod 65536

/-- `ParseCtrl_s`. Its `lineNo` is a `short`. -/
structure ParseCtrl where
  pcodeHeader : PcodeHeader
  failReason : Option FailReason
  lineNo : Int
deriving DecidableEq

/-- A zeroed header, as `talloc_zero` leaves it. -/
def PcodeHeader.zero : PcodeHeader := ⟨[], 0, 0⟩

/-- A zeroed control block with its zeroed header. -/
def ParseCtrl.zero : ParseCtrl := ⟨.zero, none, 0⟩

/-- `ParserPcodeEmit`: append an instruction that records the current
line, sequence number and nesting count. -/
def ParserPcodeEmit (pc : ParseCtrl) (op : OpType) (operand : OperandCode)
    (data1 data2 : Option CString) : ParseCtrl :=
  let ph := pc.pcodeHeader
  let new : Pcode := ⟨op, operand, pc.lineNo, ph.seq, ph.ctrlStructRefCount, data1, data2, none⟩
  { pc with pcodeHeader := { ph with code := ph.code ++ [new], seq := ph.seq + 1 } }

/-! ## Jump patching -/

/-- A close-block instruction. -/
def Pcode.isBlockEnd (p : Pcode) : Bool := p.opcode = .OP_BLOCK ∧ p.operand = .OPRB_END

/-- A test or exists instruction. -/
def Pcode.isTest (p : Pcode) : Bool := p.opcode = .OP_TEST2 ∨ p.opcode = .OP_EXISTS

/-- The backward walks of `ParserSetJumps`: from an instruction through
its `prev` pointers to the first one that is wanted at nesting `myCBRC`.
The list is the walk still to come, so the answer is the position of its
head. Meeting a smaller count, or the end of the list, is an assertion. -/
def walkBack (myCBRC : Int) (wanted : Pcode → Bool) : List Pcode → Except Fault Nat
  | [] => .error .assertion
  | p :: prevs =>
    if p.ctrlStructRefCount < myCBRC then .error .assertion
    else if p.ctrlStructRefCount = myCBRC ∧ wanted p then .ok prevs.length
    else walkBack myCBRC wanted prevs

/-- `p->skip = target`. -/
def setSkip (code : List Pcode) (p target : Nat) : List Pcode :=
  code.modify p fun instr => { instr with skip := some target }

/-- The two token ids `ParserSetJumps` is called with. -/
inductive JumpToken
  | TOK_IF
  | TOK_ELSE
deriving DecidableEq, Repr

/-- `ParserSetJumps`. -/
def ParserSetJumps (ph : PcodeHeader) (tokenID : JumpToken) : Except Fault PcodeHeader := do
  match ph.code.getLast? with
  | none => .error .assertion
  | some last =>
    ASSERT_FAIL last.isBlockEnd
    let tail := ph.code.length - 1
    let myCBRC := last.ctrlStructRefCount
    match tokenID with
    | .TOK_IF =>
      let p ← walkBack myCBRC Pcode.isTest ph.code.reverse
      return { ph with code := setSkip ph.code p tail }
    | .TOK_ELSE =>
      -- from before the current close block back to the prior one
      ASSERT_FAIL (1 < ph.code.length)
      let prior ← walkBack myCBRC Pcode.isBlockEnd ph.code.dropLast.reverse
      let elseblock := prior + 1
      let code := setSkip ph.code prior tail
      let p ← walkBack myCBRC Pcode.isTest (code.take (prior + 1)).reverse
      return { ph with code := setSkip code p elseblock }

/-! ## The semantic actions -/

/-- `this->lineNo = lineNo`. -/
def ParseCtrl.atLine (pc : ParseCtrl) (lineNo : Int) : ParseCtrl := { pc with lineNo := lineNo }

/-- `ctrlStructRefCount++` and `ctrlStructRefCount--`. -/
def ParseCtrl.nest (pc : ParseCtrl) (by_ : Int) : ParseCtrl :=
  { pc with pcodeHeader :=
    { pc.pcodeHeader with ctrlStructRefCount := pc.pcodeHeader.ctrlStructRefCount + by_ } }

/-- The literals. A string literal loses its last character, the closing
quote, and is then moved without its first. -/
def Rvalue.reduce (r : Rvalue) (pc : ParseCtrl) : Except Fault ParseCtrl :=
  match r with
  | .intlit t =>
    .ok (ParserPcodeEmit pc .OP_PUSH .OPRD_INTLIT (some t) (some (cstr "integer literal")))
  | .floatlit t =>
    .ok (ParserPcodeEmit pc .OP_PUSH .OPRD_FLOATLIT (some t) (some (cstr "float literal")))
  | .stringlit wide body => do
    let s ← UtilMoveString (Token.stringlit wide body).stringVal.dropLast 1
    return ParserPcodeEmit pc .OP_PUSH .OPRD_STRINGLIT (some s) (some (cstr "string literal"))

def Hash.reduce (h : Hash) (pc : ParseCtrl) : Except Fault ParseCtrl := do
  let name ← UtilMoveString (Token.scalar h.scalar).stringVal 1
  return ParserPcodeEmit pc .OP_PUSH .OPRD_HASHKV (some name)
    (some (Token.bareword h.key).stringVal)

def Operand.reduce (o : Operand) (pc : ParseCtrl) : Except Fault ParseCtrl :=
  match o with
  | .hash h => h.reduce pc
  | .rvalue r => r.reduce pc

def Argument.reduce (a : Argument) (pc : ParseCtrl) : Except Fault ParseCtrl :=
  match a with
  | .rvalue r => r.reduce pc
  | .hashref n => do
    let name ← UtilMoveString (Token.hash n).stringVal 1
    return ParserPcodeEmit pc .OP_PUSH .OPRD_HASHREF (some name) none

def ArgumentList.reduce (l : ArgumentList) (pc : ParseCtrl) : Except Fault ParseCtrl :=
  match l with
  | .initial a => a.reduce pc
  | .successive l a => do a.reduce (← l.reduce pc)

/-- The annotation of the two `assignment` rules. -/
def Operand.assignAnno : Operand → CString
  | .rvalue _ => cstr "hash eq rvalue"
  | .hash _ => cstr "hash eq rhash"

def Test.reduce (t : Test) (pc : ParseCtrl) : Except Fault ParseCtrl :=
  match t with
  | .compare l op r lineNo => do
    let pc ← r.reduce (← l.reduce (pc.atLine lineNo))
    return ParserPcodeEmit pc .OP_TEST2 (.test op) (some (cstr "test")) (some op.anno)
  | .exists_ h lineNo => do
    let pc ← h.reduce (pc.atLine lineNo)
    return ParserPcodeEmit pc .OP_EXISTS .none (some (cstr "test")) (some (cstr "exists"))

/-- `blockstart ::= OBRACE`. -/
def blockstart (pc : ParseCtrl) : ParseCtrl :=
  ParserPcodeEmit pc .OP_BLOCK .OPRB_BEGIN (some (cstr "***BLOCK START***")) none

/-- `blockend ::= CBRACE`. -/
def blockend (pc : ParseCtrl) : ParseCtrl :=
  ParserPcodeEmit pc .OP_BLOCK .OPRB_END (some (cstr "***BLOCK END***")) none

/-- The calls of `ParserSetJumps` at the end of a control statement, with
the decrement that follows. -/
def ParseCtrl.closeIf (pc : ParseCtrl) (tokenID : JumpToken) : Except Fault ParseCtrl := do
  let ph ← ParserSetJumps pc.pcodeHeader tokenID
  return { pc with pcodeHeader := ph }.nest (-1)

mutual

def Statement.reduce (s : Statement) (pc : ParseCtrl) : Except Fault ParseCtrl :=
  match s with
  | .function f args lineNo => do
    let pc ← args.reduce (pc.atLine lineNo)
    return ParserPcodeEmit pc .OP_FUNC (.token f) (some f.token.stringVal) none
  | .assignment lhs rhs lineNo => do
    let pc ← rhs.reduce (← lhs.reduce (pc.atLine lineNo))
    return ParserPcodeEmit pc .OP_ASSIGN .none (some rhs.assignAnno) none
  | .ifconst t block lineNo => do
    let pc ← t.reduce (pc.nest 1)
    let pc ← block.reduce (blockstart (pc.atLine lineNo))
    (blockend (pc.atLine lineNo)).closeIf .TOK_IF
  | .ifelseconst t block elseblock lineNo => do
    let pc ← t.reduce (pc.nest 1)
    let pc ← block.reduce (blockstart (pc.atLine lineNo))
    let pc ← elseblock.reduce (blockstart (blockend (pc.atLine lineNo)))
    (blockend (pc.atLine lineNo)).closeIf .TOK_ELSE

def StatementList.reduce (l : StatementList) (pc : ParseCtrl) : Except Fault ParseCtrl :=
  match l with
  | .initial s => s.reduce pc
  | .successive l s => do s.reduce (← l.reduce pc)

end

/-- The actions of a whole script; a lone bad character has none. -/
def Start.reduce (t : Start) (pc : ParseCtrl) : Except Fault ParseCtrl :=
  match t with
  | .statementlist l => l.reduce pc
  | .badchar _ => .ok pc

end XplEvent.Script
