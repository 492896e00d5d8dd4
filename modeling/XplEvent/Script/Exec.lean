import XplEvent.Lib.Loop
import XplEvent.Script.Pcode
import XplEvent.Script.Symbols
import XplEvent.Wire.Message

/-!
# The p-code interpreter

`ParserExecPcode` with the functions it calls: the value of a push
instruction, the assignment, and the two built-in functions.

What the interpreter reaches outside the parser is a record of functions
over a world `σ` (`Env`): the string hash, `strtod`, the two database
calls, `fork` and the network. Each may answer anything at every call,
since it is given the world and returns the next one.

The state an execution changes is `Store` (the symbol table, the fail
reason, the world) and two registers that find the arguments of an
instruction (`firstPush`, `pushCount`). `Store.trace` is a ghost: the
assignments and built-in calls executed, with the effects that leave the
process. `Store.fault` is a ghost too: it is set when an assertion has
ended the process, and then nothing more runs.
-/

namespace XplEvent.Script

open Wire (XplMessage XplService)

/-- What the parser calls outside itself. A `double` is any type with the
three comparisons the tests use. -/
structure Env (D σ : Type) where
  UtilHash : CString → UInt32
  UtilStod : CString → Option D
  eq : D → D → Bool
  lt : D → D → Bool
  le : D → D → Bool
  DBReadNVState : CString → σ → Option CString × σ
  DBWriteNVState : CString → CString → σ → PassFail × σ
  UtilSpawn : CString → σ → PassFail × σ
  XplSendMessage : XplMessage → σ → σ

/-- The environment in which nothing is numeric, the database is empty
and every process starts. -/
def Env.inert : Env Unit Unit where
  UtilHash _ := 0
  UtilStod _ := none
  eq _ _ := true
  lt _ _ := false
  le _ _ := true
  DBReadNVState _ w := (none, w)
  DBWriteNVState _ _ w := (.PASS, w)
  UtilSpawn _ w := (.PASS, w)
  XplSendMessage _ w := w

/-- The run-time fields of `pcheader_s` that the interpreter only reads. -/
structure Mode where
  ignoreAssignErrors : Bool
  xplServicePtr : Option XplService
  DB : Bool

/-- A pushed argument: its kind and its first string. -/
abbrev Arg := OperandCode × Option CString

/-- What an execution does, in order. The first two are steps of the
script, the others leave the process. -/
inductive Event
  | hashAssign (hash key value : CString)
  | builtinCall (f : BuiltinFunction) (args : List Arg)
  | dbWrite (key value : CString)
  | spawnProcess (command : CString)
  | broadcast (msg : XplMessage)
deriving DecidableEq

/-- An event that is seen outside the process. -/
def Event.isExternal : Event → Bool
  | .dbWrite .. | .spawnProcess _ | .broadcast _ => true
  | .hashAssign .. | .builtinCall .. => false

/-- The part of the header a script's statements change. -/
structure Store (σ : Type) where
  steHead : List ParseHashSTE
  failReason : Option FailReason
  fault : Option Fault
  world : σ
  trace : List Event

/-- Nothing more is executed: the script failed or the process is gone. -/
def Store.stopped {σ : Type} (st : Store σ) : Bool := st.failReason.isSome || st.fault.isSome

/-- The store with the argument registers. -/
structure ExecState (σ : Type) where
  store : Store σ
  firstPush : Option Nat
  pushCount : Nat

section

variable {D σ : Type} (env : Env D σ) (mode : Mode)

/-! ## Values -/

/-- `ParserHashGetValue`: from the database for `nvstate` with a handle,
else from the symbol table. -/
def ParserHashGetValue (st : Store σ) (hashName key : CString) : Option CString × Store σ :=
  if mode.DB ∧ hashName = cstr "nvstate" then
    let (value, world) := env.DBReadNVState key st.world
    (value, { st with world := world })
  else
    (hashGetValue env.UtilHash st.steHead hashName key, st)

/-- `ParserHashAddKeyValue`. -/
def ParserHashAddKeyValue (st : Store σ) (hashName key value : CString) : PassFail × Store σ :=
  if mode.DB ∧ hashName = cstr "nvstate" then
    let (res, world) := env.DBWriteNVState key value st.world
    (res, { st with world := world, trace := st.trace ++ [.dbWrite key value] })
  else
    (.PASS, { st with
      steHead := hashAddKeyValue env.UtilHash st.steHead hashName key value
      trace := st.trace ++ [.hashAssign hashName key value] })

/-- `undefVar`: fail, or only warn under `ignoreAssignErrors`. -/
def undefVar (st : Store σ) (var : Option CString) (lineNo : Int) : Except Fault (Store σ) :=
  match var with
  | none => .error .assertion
  | some var =>
    .ok (if mode.ignoreAssignErrors then st
      else { st with failReason := some (.undefVar var lineNo) })

/-- `ParserPcodeGetValue` on a push instruction; `none` is `FAIL`. -/
def ParserPcodeGetValue (st : Store σ) (instr : Pcode) :
    Except Fault (Option CString × Store σ) :=
  match instr.operand with
  | .OPRD_STRINGLIT | .OPRD_INTLIT | .OPRD_FLOATLIT | .OPRD_HASHREF => .ok (instr.data1, st)
  | .OPRD_HASHKV =>
    match instr.data1, instr.data2 with
    | some hashName, some key => .ok (ParserHashGetValue env mode st hashName key)
    | _, _ => .error .assertion
  | _ => .error .assertion

/-- `ParserPcodePutValue`. -/
def ParserPcodePutValue (st : Store σ) (instr : Pcode) (value : CString) :
    Except Fault (PassFail × Store σ) :=
  if instr.operand = .OPRD_HASHKV then
    match instr.data1, instr.data2 with
    | some hashName, some key => .ok (ParserHashAddKeyValue env mode st hashName key value)
    | _, _ => .error .assertion
  else .ok (.FAIL, st)

/-- The instruction `n` steps back from `i` along `prev`. -/
def prev (code : List Pcode) (i n : Nat) : Except Fault Pcode :=
  if n ≤ i then deref code[i - n]? else .error .nullDeref

/-! ## Tests -/

/-- The `switch` on the operand of a `TEST2`. The left number, the right
number and the two strings are in place. -/
def Testop.holds (op : Testop) (leftNum rightNum : Option D) (value rvalue : CString) : Bool :=
  match op, leftNum, rightNum with
  | .OPRT_STREQUALITY, _, _ => rvalue = value
  | .OPRT_NUMEQUALITY, some l, some r => env.eq l r
  | .OPRT_NUMINEQUALITY, some l, some r => !env.eq l r
  | .OPRT_NUMGTRTHAN, some l, some r => env.lt r l
  | .OPRT_NUMLESSTHAN, some l, some r => env.lt l r
  | .OPRT_NUMGTREQTHAN, some l, some r => env.le r l
  | .OPRT_NUMLESSEQTHAN, some l, some r => env.le l r
  | _, _, _ => false

/-- A numeric test of a string that is no number. -/
def Testop.rejects (op : Testop) (value : CString) : Bool :=
  op ≠ .OPRT_STREQUALITY ∧ env.UtilStod value = none

/-- The body of `OP_TEST2`: whether the test skips, and the store after
it. The left operand is fetched and converted before the right one. -/
def execTest2 (st : Store σ) (left right : Pcode) (op : Testop) (lineNo : Int) :
    Except Fault (Bool × Store σ) := do
  match ← ParserPcodeGetValue env mode st left with
  | (none, st) => return (false, ← undefVar mode st left.data1 lineNo)
  | (some value, st) =>
    if op.rejects env value then
      return (false, { st with failReason := some (.invalidNumeric lineNo) })
    match ← ParserPcodeGetValue env mode st right with
    | (none, st) => return (false, ← undefVar mode st right.data1 lineNo)
    | (some rvalue, st) =>
      if op.rejects env rvalue then
        return (false, { st with failReason := some (.invalidNumeric lineNo) })
      return (!op.holds env (env.UtilStod value) (env.UtilStod rvalue) value rvalue, st)

/-! ## Built-in functions -/

/-- The states of `ParserSplitXPLTag`. -/
inductive TagState
  | hyphen
  | dot
  | finish
deriving DecidableEq, Repr

/-- The character loop of `ParserSplitXPLTag` from the `i`-th character
on. `j` runs with `i` and restarts at 0 on a delimiter, so after the
first part it is one ahead of the length. -/
def splitTagLoop (tag : CString) : CString → (i j begin_ : Nat) → TagState →
    (vendor device : CString) → Option (CString × CString × CString)
  | [], _, _, _, .hyphen, _, _ => none
  | [], _, _, _, .dot, _, _ => none
  | [], _, j, begin_, .finish, vendor, device =>
    if j = 0 ∨ j > 9 then none
    else some (vendor, device, (tag.drop begin_).take (j - 1))
  | c :: rest, i, j, begin_, .hyphen, vendor, device =>
    if c = 45 then
      if j = 0 ∨ j > 9 then none
      else splitTagLoop tag rest (i + 1) 1 (i + 1) .dot (tag.take j) device
    else splitTagLoop tag rest (i + 1) (j + 1) begin_ .hyphen vendor device
  | c :: rest, i, j, begin_, .dot, vendor, device =>
    if c = 46 then
      if j = 0 ∨ j > 9 then none
      else splitTagLoop tag rest (i + 1) 1 (i + 1) .finish vendor ((tag.drop begin_).take (j - 1))
    else splitTagLoop tag rest (i + 1) (j + 1) begin_ .dot vendor device
  | _ :: rest, i, j, begin_, .finish, vendor, device =>
    splitTagLoop tag rest (i + 1) (j + 1) begin_ .finish vendor device

/-- `ParserSplitXPLTag` with all three outputs requested. -/
def ParserSplitXPLTag (tag : CString) : Option (CString × CString × CString) :=
  splitTagLoop tag tag 0 0 0 .hyphen [] []

/-- A value that `ASSERT_FAIL` demands. -/
def demandValue (instr : Except Fault Pcode) (st : Store σ) :
    Except Fault (CString × Store σ) := do
  match ← ParserPcodeGetValue env mode st (← instr) with
  | (some value, st) => return (value, st)
  | (none, _) => .error .assertion

/-- `spawn`. The test for a dry run is disabled in the source. -/
def spawn (code : List Pcode) (pi : Nat) (ex : ExecState σ) : Except Fault (ExecState σ) := do
  if ex.pushCount ≠ 1 then
    return { ex with store := { ex.store with failReason := some (.spawnArgs ex.pushCount) } }
  let (command, st) ← demandValue env mode (prev code pi 1) ex.store
  let (res, world) := env.UtilSpawn command st.world
  let st := { st with world := world, trace := st.trace ++ [Event.spawnProcess command] }
  match res with
  | .PASS => return { ex with store := st }
  | .FAIL => return { ex with store := { st with failReason := some (.spawnFailed command) } }

/-- The message `sendXPLCommand` builds from the tag, the schema and the
key list of a hash. -/
def commandMessage (xs : XplService) (vendor device instance_ class_ type_ : CString)
    (kvs : List ParseHashKV) : XplMessage :=
  let msg := Wire.createTargetedMessage xs .XPL_MESSAGE_COMMAND vendor device instance_
  let msg := Wire.XplClearNameValues (Wire.XplSetMessageClassType msg class_ type_)
  kvs.foldl (fun msg kv => Wire.addMessageNamedValue msg kv.key kv.value) msg

/-- The end of `sendXPLCommand`, with its four values fetched: split the
tag, find the hash, send the message unless it is a dry run, and empty
the hash. -/
def sendCommand (st : Store σ) (tag class_ type_ hash : CString) : Except Fault (Store σ) :=
  match ParserSplitXPLTag tag with
  | none => .ok { st with failReason := some (.badTag tag) }
  | some (vendor, device, instance_) =>
    match findHash env.UtilHash st.steHead hash with
    | none => .error .assertion
    | some se =>
      let st := match mode.xplServicePtr with
        | none => st
        | some xs =>
          let msg := commandMessage xs vendor device instance_ class_ type_ se.kvs
          { st with
            world := env.XplSendMessage msg st.world
            trace := st.trace ++ [Event.broadcast msg] }
      .ok { st with steHead := deleteHashContents env.UtilHash st.steHead hash }

/-- `sendXPLCommand`. -/
def sendXPLCommand (code : List Pcode) (pi : Nat) (ex : ExecState σ) :
    Except Fault (ExecState σ) := do
  if ex.pushCount ≠ 4 then
    return { ex with store := { ex.store with failReason := some (.xplcmdArgs ex.pushCount) } }
  let (hash, st) ← demandValue env mode (prev code pi 1) ex.store
  let (type_, st) ← demandValue env mode (prev code pi 2) st
  let (class_, st) ← demandValue env mode (prev code pi 3) st
  let (tag, st) ← demandValue env mode (prev code pi 4) st
  return { ex with store := ← sendCommand env mode st tag class_ type_ hash }

/-- `ParserExecFunction`. -/
def ParserExecFunction (code : List Pcode) (pi : Nat) (ex : ExecState σ) :
    Except Fault (ExecState σ) := do
  match (← deref code[pi]?).operand with
  | .token .TOK_XPLCMD => sendXPLCommand env mode code pi ex
  | .token .TOK_SPAWN => spawn env mode code pi ex
  | _ => .error .assertion

/-! ## The execution loop -/

/-- What the interpreter hands to a built-in function: the position of
the call in the code and the state. -/
abbrev Func (σ : Type) := List Pcode → Nat → ExecState σ → Except Fault (ExecState σ)

/-- The arguments of a call: the last `pushCount` instructions before it. -/
def pushedArgs (code : List Pcode) (pi pushCount : Nat) : List Arg :=
  ((code.drop (pi - pushCount)).take pushCount).map fun p => (p.operand, p.data1)

/-- The body of the loop for one instruction at position `i`, after
`firstPush` was reset: the position `pe` is left at, and the state. -/
def execInstr (func : Func σ) (code : List Pcode) (i : Nat) (pe : Pcode) (ex : ExecState σ) :
    Except Fault (Nat × ExecState σ) :=
  match pe.opcode with
  | .OP_NOP => .ok (i, ex)
  | .OP_BLOCK =>
    match pe.operand, pe.skip with
    | .OPRB_END, some skip => .ok (skip, ex)
    | _, _ => .ok (i, ex)
  | .OP_PUSH =>
    let ex := if ex.firstPush.isNone then { ex with pushCount := 0, firstPush := some i } else ex
    .ok (i, { ex with pushCount := ex.pushCount + 1 })
  | .OP_ASSIGN => do
    ASSERT_FAIL (ex.pushCount = 2)
    let right ← prev code i 1
    match ← ParserPcodeGetValue env mode ex.store right with
    | (none, st) => return (i, { ex with store := ← undefVar mode st right.data1 pe.lineNo })
    | (some value, st) =>
      let left ← prev code i 2
      match ← ParserPcodePutValue env mode st left value with
      | (.FAIL, st) => return (i, { ex with store := ← undefVar mode st left.data1 pe.lineNo })
      | (.PASS, st) => return (i, { ex with store := st })
  | .OP_TEST2 => do
    ASSERT_FAIL (ex.pushCount = 2)
    match pe.operand with
    | .test op =>
      let (skips, st) ← execTest2 env mode ex.store (← prev code i 2) (← prev code i 1) op pe.lineNo
      if skips then
        match pe.skip with
        | none => .error .assertion
        | some skip => return (skip, { ex with store := st })
      else return (i, { ex with store := st })
    | _ => .error .assertion
  | .OP_EXISTS => do
    ASSERT_FAIL (ex.pushCount = 1)
    match ← ParserPcodeGetValue env mode ex.store (← prev code i 1) with
    | (none, st) =>
      match pe.skip with
      | none => .error .assertion
      | some skip => return (skip, { ex with store := st })
    | (some _, st) => return (i, { ex with store := st })
  | .OP_FUNC => do
    let .token f := pe.operand | .error .assertion
    let call := Event.builtinCall f (pushedArgs code i ex.pushCount)
    let ex ← func code i { ex with store := { ex.store with trace := ex.store.trace ++ [call] } }
    return (i, ex)
  | .OP_IF => .error .assertion

/-- `if(pe->opcode != OP_PUSH) ph->firstPush = NULL`. -/
def resetPush (pe : Pcode) (ex : ExecState σ) : ExecState σ :=
  if pe.opcode = .OP_PUSH then ex else { ex with firstPush := none }

/-- One turn of the loop at position `i`. -/
def execTurn (func : Func σ) (code : List Pcode) :
    Nat × ExecState σ → Lib.Turn (Nat × ExecState σ) (ExecState σ)
  | (i, ex) =>
    if ex.store.stopped then .done ex
    else match code[i]? with
      | none => .done ex
      | some pe =>
        match execInstr env mode func code i pe (resetPush pe ex) with
        | .error f => .done { ex with store := { ex.store with fault := some f } }
        | .ok (i, ex) => .again (i + 1, ex)

/-- `ParserExecPcode` on a header whose `firstPush` is not set yet, for at
most `fuel` turns of its loop. The result is not read when an assertion
ended the process. -/
def ParserExecPcode (func : Func σ) (code : List Pcode) (fuel : Nat) (st : Store σ) :
    Option (PassFail × Store σ) :=
  if code.isEmpty then some (.FAIL, { st with fault := some .assertion })
  else (Lib.loop (execTurn env mode func code) fuel (0, ⟨st, none, 0⟩)).map fun ex =>
    (if ex.store.failReason.isSome then .FAIL else .PASS, ex.store)

/-! ## What an instruction can do -/

variable {env mode}

/-- A test that skips has somewhere to skip to. -/
theorem skip_ok {skip : Option Nat} {ex ex' : ExecState σ} {j : Nat}
    (h : (match skip with
      | none => .error .assertion
      | some skip => return (skip, ex) : Except Fault (Nat × ExecState σ)) = .ok (j, ex')) :
    skip = some j ∧ ex' = ex := by
  cases skip with
  | none => cases h
  | some skip =>
    cases h
    exact ⟨rfl, rfl⟩

/-- **What an instruction can do.** The loop goes on behind it, or, if it is
no push, behind the one it skips to; and unless it is a push, it leaves the
registers to a call. -/
theorem execInstr_spec {func : Func σ} {code : List Pcode} {i j : Nat} {pe : Pcode}
    {ex ex' : ExecState σ} (h : execInstr env mode func code i pe ex = .ok (j, ex')) :
    (j = i ∨ (pe.opcode ≠ .OP_PUSH ∧ pe.skip = some j)) ∧
      (pe.opcode = .OP_PUSH ∨ (∃ st, ex' = { ex with store := st }) ∨
        ∃ st, func code i { ex with store := st } = .ok ex') := by
  rw [execInstr] at h
  cases hop : pe.opcode with
  | OP_NOP =>
    rw [hop] at h
    cases h
    exact ⟨.inl rfl, .inr (.inl ⟨_, rfl⟩)⟩
  | OP_PUSH =>
    rw [hop] at h
    cases h
    exact ⟨.inl rfl, .inl rfl⟩
  | OP_BLOCK =>
    rw [hop] at h
    dsimp only at h
    split at h
    · rename_i skip _ hskip
      cases h
      exact ⟨.inr ⟨OpType.noConfusion, hskip⟩, .inr (.inl ⟨_, rfl⟩)⟩
    · cases h
      exact ⟨.inl rfl, .inr (.inl ⟨_, rfl⟩)⟩
  | OP_ASSIGN =>
    rw [hop] at h
    obtain ⟨_, -, h⟩ := bind_ok h
    obtain ⟨right, -, h⟩ := bind_ok h
    obtain ⟨⟨_ | value, st⟩, -, h⟩ := bind_ok h
    · obtain ⟨st', -, h⟩ := bind_ok h
      cases h
      exact ⟨.inl rfl, .inr (.inl ⟨_, rfl⟩)⟩
    obtain ⟨left, -, h⟩ := bind_ok h
    obtain ⟨⟨_ | _, st'⟩, -, h⟩ := bind_ok h
    · cases h
      exact ⟨.inl rfl, .inr (.inl ⟨_, rfl⟩)⟩
    · obtain ⟨st'', -, h⟩ := bind_ok h
      cases h
      exact ⟨.inl rfl, .inr (.inl ⟨_, rfl⟩)⟩
  | OP_TEST2 =>
    rw [hop] at h
    obtain ⟨_, -, h⟩ := bind_ok h
    dsimp only at h
    split at h
    · obtain ⟨left, -, h⟩ := bind_ok h
      obtain ⟨right, -, h⟩ := bind_ok h
      obtain ⟨⟨_ | _, st⟩, -, h⟩ := bind_ok h
      · cases h
        exact ⟨.inl rfl, .inr (.inl ⟨_, rfl⟩)⟩
      · obtain ⟨hskip, hex⟩ := skip_ok h
        exact ⟨.inr ⟨OpType.noConfusion, hskip⟩, .inr (.inl ⟨_, hex⟩)⟩
    · cases h
  | OP_EXISTS =>
    rw [hop] at h
    obtain ⟨_, -, h⟩ := bind_ok h
    obtain ⟨key, -, h⟩ := bind_ok h
    obtain ⟨⟨_ | value, st⟩, -, h⟩ := bind_ok h
    · obtain ⟨hskip, hex⟩ := skip_ok h
      exact ⟨.inr ⟨OpType.noConfusion, hskip⟩, .inr (.inl ⟨_, hex⟩)⟩
    · cases h
      exact ⟨.inl rfl, .inr (.inl ⟨_, rfl⟩)⟩
  | OP_FUNC =>
    rw [hop] at h
    dsimp only at h
    split at h
    · obtain ⟨ex₁, hcall, h⟩ := bind_ok h
      cases h
      exact ⟨.inl rfl, .inr (.inr ⟨_, hcall⟩)⟩
    · cases h
  | OP_IF =>
    rw [hop] at h
    cases h

/-- A turn that goes round again has executed an instruction. -/
theorem execTurn_again {func : Func σ} {code : List Pcode} {i : Nat} {ex : ExecState σ}
    {s : Nat × ExecState σ} (h : execTurn env mode func code (i, ex) = .again s) :
    ∃ pe j ex', code[i]? = some pe ∧
      execInstr env mode func code i pe (resetPush pe ex) = .ok (j, ex') ∧ s = (j + 1, ex') := by
  rw [execTurn] at h
  split at h
  · cases h
  split at h
  · cases h
  rename_i pe hpe
  split at h
  · cases h
  rename_i j ex' hexec
  cases h
  exact ⟨pe, j, ex', hpe, hexec, rfl⟩

end

end XplEvent.Script
