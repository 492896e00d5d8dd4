import XplEvent.Script.Builtins
import XplEvent.Script.Hashes
import XplEvent.Script.Tag
import XplEvent.Service.Delivery

/-!
# What an `xplcmd` does

`sendXPLCommand` walks back over the four pushes in front of the call,
builds one message from them and from a hash, hands it to
`XplSendMessage` and empties the hash. `CommandSent` is all of that,
about the store before the call and the store after it.

Where the calls of a script stand in its code is read off the tree
(`CallAt`). The walk relies on the argument registers, and these are at
rest wherever a statement begins: `firstPush` is only set while the
instruction just passed is a push (`execTurn_rested`), and no statement
begins behind one.
-/

namespace XplEvent.Script

open Lib (Reaches Segment Turn Visits)

variable {D σ : Type} {env : Env D σ} {mode : Mode} {func : Func σ} {code : List Pcode}

/-! ## Where the calls stand -/

mutual

/-- A statement laid out from `base` has a call of `f` whose first
instruction stands at `i`. -/
def Statement.CallAt (f : BuiltinFunction) (args : ArgumentList) (i : Nat) (s : Statement)
    (base : Nat) : Prop :=
  match s with
  | .function f' args' _ => f' = f ∧ args' = args ∧ i = base
  | .assignment .. => False
  | .ifconst t block _ => block.CallAt f args i (base + t.size + 1)
  | .ifelseconst t block elseblock _ =>
    block.CallAt f args i (base + t.size + 1) ∨
      elseblock.CallAt f args i (base + t.size + 1 + block.size + 2)

def StatementList.CallAt (f : BuiltinFunction) (args : ArgumentList) (i : Nat) (l : StatementList)
    (base : Nat) : Prop :=
  match l with
  | .initial s => s.CallAt f args i base
  | .successive l s => l.CallAt f args i base ∨ s.CallAt f args i (base + l.size)

end

/-- No push stands in front of position `i`. -/
def Unpushed (code : List Pcode) (i : Nat) : Prop :=
  ∀ k p, i = k + 1 → code[k]? = some p → p.opcode ≠ .OP_PUSH

theorem unpushed_zero : Unpushed code 0 := by
  intro k p hk
  cases hk

theorem unpushed_after {i : Nat} {p : Pcode} (hget : code[i]? = some p)
    (hp : p.opcode ≠ .OP_PUSH) : Unpushed code (i + 1) := by
  intro k q hk hq
  cases hk
  rw [hget] at hq
  cases hq
  exact hp

/-- The code of a statement ends with an instruction that is no push. -/
theorem Statement.layout_last (s : Statement) (base : Nat) (depth : Int) :
    ∃ front p, s.layout base depth = front ++ [p] ∧ p.opcode ≠ .OP_PUSH := by
  cases s with
  | function f args n => exact ⟨_, _, rfl, by rintro ⟨⟩⟩
  | assignment lhs rhs n => exact ⟨[_, _], _, rfl, by rintro ⟨⟩⟩
  | ifconst t block n => exact ⟨_, _, rfl, by rintro ⟨⟩⟩
  | ifelseconst t block elseblock n => exact ⟨_, _, rfl, by rintro ⟨⟩⟩

theorem StatementList.layout_last (l : StatementList) (base : Nat) (depth : Int) :
    ∃ front p, l.layout base depth = front ++ [p] ∧ p.opcode ≠ .OP_PUSH := by
  cases l with
  | initial s => exact s.layout_last base depth
  | successive l s =>
    obtain ⟨front, p, hlast, hp⟩ := s.layout_last (base + l.size) depth
    refine ⟨l.layout base depth ++ front, p, ?_, hp⟩
    rw [StatementList.layout, hlast, List.append_assoc]

/-- What follows the code of a list does not follow a push. -/
theorem StatementList.unpushed (l : StatementList) {base : Nat} {depth : Int}
    (hseg : Segment code base (l.layout base depth)) : Unpushed code (base + l.size) := by
  obtain ⟨front, p, hlast, hp⟩ := l.layout_last base depth
  have hlen : front.length + 1 = l.size := by
    rw [← l.layout_length base depth, hlast, List.length_append, List.length_singleton]
  rw [hlast] at hseg
  rw [← hlen, ← Nat.add_assoc]
  exact unpushed_after hseg.right.get hp

variable {f : BuiltinFunction} {args : ArgumentList} {i : Nat}

mutual

/-- A call of the tree is the code of a call where it stands, and no push
stands in front of it. -/
theorem Statement.callAt_segment (s : Statement) {base : Nat} {depth : Int}
    (h : s.CallAt f args i base) (hseg : Segment code base (s.layout base depth))
    (hbase : Unpushed code base) :
    (∃ n depth', Segment code i ((Statement.function f args n).layout i depth')) ∧
      Unpushed code i := by
  cases s with
  | function f' args' n =>
    obtain ⟨rfl, rfl, rfl⟩ := h
    exact ⟨⟨n, depth, hseg⟩, hbase⟩
  | assignment lhs rhs n => exact h.elim
  | ifconst t block n =>
    have hbegin := hseg.left.left.right.get
    have hblock := hseg.left.right
    simp only [List.length_append, Test.code_length, List.length_singleton,
      ← Nat.add_assoc] at hbegin hblock
    exact block.callAt_segment h hblock (unpushed_after hbegin (by rintro ⟨⟩))
  | ifelseconst t block elseblock n =>
    have hthen := hseg.left.left.left
    have hbegin := hthen.left.left.right.get
    have hblock := hthen.left.right
    have helseBegin := hseg.left.left.right.get
    have helse := hseg.left.right
    simp only [List.length_append, Test.code_length, StatementList.layout_length,
      List.length_singleton, ← Nat.add_assoc] at hbegin hblock helseBegin helse
    rcases h with h | h
    · exact block.callAt_segment h hblock (unpushed_after hbegin (by rintro ⟨⟩))
    · exact elseblock.callAt_segment h helse (unpushed_after helseBegin (by rintro ⟨⟩))
termination_by structural s

theorem StatementList.callAt_segment (l : StatementList) {base : Nat} {depth : Int}
    (h : l.CallAt f args i base) (hseg : Segment code base (l.layout base depth))
    (hbase : Unpushed code base) :
    (∃ n depth', Segment code i ((Statement.function f args n).layout i depth')) ∧
      Unpushed code i := by
  cases l with
  | initial s => exact s.callAt_segment h hseg hbase
  | successive l s =>
    have hright := hseg.right
    rw [StatementList.layout_length] at hright
    rcases h with h | h
    · exact l.callAt_segment h hseg.left hbase
    · exact s.callAt_segment h hright (l.unpushed hseg.left)
termination_by structural l

end

/-! ## The registers at rest -/

/-- `firstPush` is set behind a push only. -/
def Rested (code : List Pcode) : Nat × ExecState σ → Prop
  | (i, ex) => ex.firstPush = none ∨ ∃ k p, i = k + 1 ∧ code[k]? = some p ∧ p.opcode = .OP_PUSH

/-- A function handed to the interpreter that leaves `firstPush` alone. -/
def KeepsFirstPush (func : Func σ) : Prop :=
  ∀ code pi ex ex', func code pi ex = .ok ex' → ex'.firstPush = ex.firstPush

theorem sendXPLCommand_firstPush {pi : Nat} {ex ex' : ExecState σ}
    (h : sendXPLCommand env mode code pi ex = .ok ex') : ex'.firstPush = ex.firstPush := by
  unfold sendXPLCommand at h
  split at h
  · cases h
    rfl
  · obtain ⟨⟨hash, st₁⟩, -, h⟩ := bind_ok h
    obtain ⟨⟨type_, st₂⟩, -, h⟩ := bind_ok h
    obtain ⟨⟨class_, st₃⟩, -, h⟩ := bind_ok h
    obtain ⟨⟨tag, st₄⟩, -, h⟩ := bind_ok h
    obtain ⟨st₅, -, h⟩ := bind_ok h
    cases h
    rfl

theorem spawn_firstPush {pi : Nat} {ex ex' : ExecState σ}
    (h : spawn env mode code pi ex = .ok ex') : ex'.firstPush = ex.firstPush := by
  unfold spawn at h
  split at h
  · cases h
    rfl
  · obtain ⟨⟨command, st⟩, -, h⟩ := bind_ok h
    simp only at h
    split at h
    · cases h
      rfl
    · cases h
      rfl

theorem ParserExecFunction_firstPush : KeepsFirstPush (ParserExecFunction env mode) := by
  intro code pi ex ex' h
  obtain ⟨p, -, h⟩ := bind_ok h
  split at h
  · exact sendXPLCommand_firstPush h
  · exact spawn_firstPush h
  · cases h

/-- **The register is at rest behind every instruction but a push.** -/
theorem execTurn_rested (hfunc : KeepsFirstPush func) {s s' : Nat × ExecState σ}
    (h : execTurn env mode func code s = .again s') : Rested code s' := by
  obtain ⟨i, ex⟩ := s
  obtain ⟨pe, j, ex', hpe, hexec, rfl⟩ := execTurn_again h
  by_cases hpush : pe.opcode = .OP_PUSH
  · rcases (execInstr_spec hexec).1 with rfl | ⟨hskip, -⟩
    · exact .inr ⟨j, pe, rfl, hpe, hpush⟩
    · exact absurd hpush hskip
  · have hreset : (resetPush pe ex).firstPush = none := by
      rw [resetPush, if_neg hpush]
    rcases (execInstr_spec hexec).2 with hpush' | ⟨st, rfl⟩ | ⟨st, hcall⟩
    · exact absurd hpush' hpush
    · exact .inl hreset
    · exact .inl ((hfunc _ _ _ _ hcall).trans hreset)

theorem visits_rested (hfunc : KeepsFirstPush func) {st : Store σ} {s : Nat × ExecState σ}
    (h : Visits (execTurn env mode func code) (0, ⟨st, none, 0⟩) s) : Rested code s :=
  h.invariant (.inl rfl) fun _ _ _ hturn => execTurn_rested hfunc hturn

/-- No register is set where no push stands in front. -/
theorem Rested.firstPush {i : Nat} {ex : ExecState σ} (h : Rested code (i, ex))
    (hi : Unpushed code i) : ex.firstPush = none := by
  rcases h with h | ⟨k, p, hk, hp, hpush⟩
  · exact h
  · exact absurd hpush (hi k p hk hp)

/-! ## The message -/

/-- The text of an argument. -/
def Argument.text : Argument → CString
  | .rvalue r => r.text
  | .hashref n => n.text

/-- The argument list of an `xplcmd`. -/
def commandArgs (tag class_ type_ hash : Argument) : ArgumentList :=
  .successive (.successive (.successive (.initial tag) class_) type_) hash

/-- A sendable command message to a tag, of a schema, with the keys and
values of a key list in its order. -/
structure IsCommand (tag class_ type_ : CString) (kvs : List ParseHashKV)
    (msg : Wire.XplMessage) : Prop where
  command : msg.messageType = .XPL_MESSAGE_COMMAND
  sendable : msg.serviceObj = true
  target : ∃ vendor device instance_, TagParts tag vendor device instance_ ∧
    msg.targetVendor = some vendor ∧ msg.targetDeviceID = some device ∧
    msg.targetInstanceID = some instance_ ∧ msg.isBroadcastMessage = false
  schema : msg.schemaClass = some class_ ∧ msg.schemaType = some type_
  pairs : (msg.nvList.map fun nvp => (nvp.itemName, nvp.itemValue)) =
    kvs.map fun kv => (kv.key, some kv.value)

/-- A key list is added to a message entry by entry. -/
theorem addMessageNamedValue_foldl (kvs : List ParseHashKV) (msg : Wire.XplMessage) :
    kvs.foldl (fun msg kv => Wire.addMessageNamedValue msg kv.key kv.value) msg =
      { msg with nvList := msg.nvList ++ kvs.map fun kv => ⟨0, kv.key, some kv.value⟩ } := by
  induction kvs generalizing msg with
  | nil => rw [List.map_nil, List.append_nil]; rfl
  | cons kv kvs ih =>
    rw [List.foldl_cons, ih, List.map_cons]
    simp only [Wire.addMessageNamedValue, List.append_assoc, List.cons_append, List.nil_append]

theorem commandMessage_isCommand (xs : Wire.XplService)
    {tag vendor device instance_ : CString} (htag : TagParts tag vendor device instance_)
    (class_ type_ : CString) (kvs : List ParseHashKV) :
    IsCommand tag class_ type_ kvs
      (commandMessage xs vendor device instance_ class_ type_ kvs) := by
  rw [commandMessage, addMessageNamedValue_foldl]
  refine ⟨rfl, rfl, ⟨vendor, device, instance_, htag, rfl, rfl, rfl, rfl⟩, ⟨rfl, rfl⟩, ?_⟩
  show List.map _ ([] ++ kvs.map fun kv => _) = _
  rw [List.nil_append, List.map_map]
  rfl

/-! ## The store behind the call -/

/-- What an `xplcmd` does to the store: one command message is handed
over, nothing fails, and the hash `se` is emptied. -/
structure CommandSent (env : Env D σ) (tag class_ type_ hash : Argument) (se : ParseHashSTE)
    (st st' : Store σ) : Prop where
  sent : ∃ msg, IsCommand tag.text class_.text type_.text se.kvs msg ∧
    st'.world = env.XplSendMessage msg st.world ∧
    st'.trace = st.trace ++
      [.builtinCall .TOK_XPLCMD (commandArgs tag class_ type_ hash).args, .broadcast msg]
  runs : st'.failReason = st.failReason ∧ st'.fault = st.fault
  table : ∃ front rest, st.steHead = front ++ se :: rest ∧
    st'.steHead = front ++ emptied se :: rest
  emptied : findHash env.UtilHash st'.steHead hash.text = some (emptied se)
  others : ∀ name, name ≠ hash.text →
    findHash env.UtilHash st'.steHead name = findHash env.UtilHash st.steHead name
  afresh : ∀ ops, keyList env.UtilHash (addAll env.UtilHash st'.steHead ops) hash.text =
    keyList env.UtilHash (addAll env.UtilHash [] ops) hash.text
  assigned : ∀ ops, ∀ ke ∈ keyList env.UtilHash (addAll env.UtilHash st'.steHead ops) hash.text,
    (hash.text, ke.key, ke.value) ∈ ops

theorem Argument.arg_text (a : Argument) : a.arg = (a.arg.1, some a.text) := by
  cases a with
  | rvalue r => rfl
  | hashref n => rfl

variable (env mode) in
/-- A call of `xplcmd` with a tag that splits, a hash in the table and a
service. -/
theorem call_commandSent {tag class_ type_ hash : Argument} {st : Store σ} {xs : Wire.XplService}
    {se : ParseHashSTE} (hxs : mode.xplServicePtr = some xs)
    (htag : (ParserSplitXPLTag tag.text).isSome = true)
    (hse : findHash env.UtilHash st.steHead hash.text = some se) :
    CommandSent env tag class_ type_ hash se st
      (call (builtins env mode) .TOK_XPLCMD (commandArgs tag class_ type_ hash).args st) := by
  obtain ⟨⟨vendor, device, instance_⟩, hsplit⟩ := Option.isSome_iff_exists.mp htag
  let args := (commandArgs tag class_ type_ hash).args
  let msg := commandMessage xs vendor device instance_ class_.text type_.text se.kvs
  have hargs : args = [(tag.arg.1, some tag.text), (class_.arg.1, some class_.text),
      (type_.arg.1, some type_.text), (hash.arg.1, some hash.text)] := by
    rw [← tag.arg_text, ← class_.arg_text, ← type_.arg_text, ← hash.arg_text]
    rfl
  have hcall : call (builtins env mode) .TOK_XPLCMD args st = { st with
      steHead := deleteHashContents env.UtilHash st.steHead hash.text
      world := env.XplSendMessage msg st.world
      trace := st.trace ++ [.builtinCall .TOK_XPLCMD args, .broadcast msg] } := by
    simp only [call, builtins, hargs, xplcmdArgs, sendCommand, hsplit, hse, hxs,
      List.append_assoc, List.cons_append, List.nil_append]
    rfl
  have hfound : ∀ name, findHash env.UtilHash
      (deleteHashContents env.UtilHash st.steHead hash.text) name = _ :=
    findHash_delete st.steHead hash.text
  have hempty : keyList env.UtilHash (deleteHashContents env.UtilHash st.steHead hash.text)
      hash.text = [] := by
    rw [keyList_delete, if_pos rfl]
  rw [hcall]
  exact {
    sent := ⟨msg, commandMessage_isCommand xs (ParserSplitXPLTag_some_iff.mp hsplit).1 _ _ _,
      rfl, rfl⟩
    runs := ⟨rfl, rfl⟩
    table := deleteHashContents_append hse
    emptied := by rw [hfound, hse, Option.map_some, if_pos rfl]
    others := by
      intro name hname
      simp only [hfound, if_neg hname, Option.map_id']
    afresh := fun ops => keyList_addAll_congr (hempty.trans rfl) ops
    assigned := by
      intro ops ke hke
      rcases mem_keyList_addAll hke with hke | hke
      · rw [hempty] at hke
        cases hke
      · exact hke }

/-- **Every `xplcmd` of a compiled script sends its one message and
empties its hash**, whatever the symbol table holds when the interpreter
comes to it. -/
theorem xplcmd_sends {l : StatementList} {pc : ParseCtrl}
    (hpc : (Start.statementlist l).reduce .zero = .ok pc) {st : Store σ} {i : Nat}
    {ex : ExecState σ}
    (hvisit : Visits (execTurn env mode (ParserExecFunction env mode) pc.pcodeHeader.code)
      (0, ⟨st, none, 0⟩) (i, ex))
    (hrun : ex.store.stopped = false) {tag class_ type_ hash : Argument}
    (hcall : l.CallAt .TOK_XPLCMD (commandArgs tag class_ type_ hash) i 0)
    {xs : Wire.XplService} (hxs : mode.xplServicePtr = some xs)
    (htag : (ParserSplitXPLTag tag.text).isSome = true) {se : ParseHashSTE}
    (hse : findHash env.UtilHash ex.store.steHead hash.text = some se) :
    ∃ n ex', Reaches (execTurn env mode (ParserExecFunction env mode) pc.pcodeHeader.code) n
        (i, ex) (i + 5, ex') ∧
      CommandSent env tag class_ type_ hash se ex.store ex'.store := by
  rw [StatementList.code_of_reduce hpc] at hvisit ⊢
  obtain ⟨⟨n, depth, hseg⟩, hi⟩ := l.callAt_segment hcall (Segment.whole _) unpushed_zero
  have hfirst := (visits_rested ParserExecFunction_firstPush hvisit).firstPush hi
  have hsent : CommandSent env tag class_ type_ hash se ex.store _ :=
    call_commandSent env mode hxs htag hse
  obtain ⟨m, -, j, ex', hreach, hstore, hrest⟩ :=
    function_simulates ParserExecFunction_implements .TOK_XPLCMD _ n hrun hfirst hseg
  have hrun' : (call (builtins env mode) .TOK_XPLCMD
      (commandArgs tag class_ type_ hash).args ex.store).stopped = false := by
    rw [Store.stopped, hsent.runs.1, hsent.runs.2]
    exact hrun
  obtain ⟨rfl, -⟩ := hrest hrun'
  exact ⟨m, ex', hreach, hstore ▸ hsent⟩

/-- A table in which `%f` has a key. -/
def sampleTable : List ParseHashSTE := [⟨0, cstr "f", [⟨0, cstr "k", cstr "v"⟩]⟩]

/-- The mode of a script run by a service, without a database. -/
def sampleMode : Mode := ⟨false, some (Service.sampleService .XPL_REPORT_MODE_NORMAL), false⟩

/-- The call of the sample script, from its table. -/
theorem xplcmd_sends_sample :
    ∃ n ex', Reaches (execTurn Env.inert sampleMode (ParserExecFunction .inert sampleMode)
        (sampleCommand.layout 0 0)) n (0, ⟨.fresh sampleTable (), none, 0⟩) (5, ex') ∧
      CommandSent Env.inert (.rvalue (.stringlit false (cstr "a-b.c")))
        (.rvalue (.stringlit false (cstr "d"))) (.rvalue (.stringlit false (cstr "e")))
        (.hashref ⟨cstr "f", by decide⟩) ⟨0, cstr "f", [⟨0, cstr "k", cstr "v"⟩]⟩
        (.fresh sampleTable ()) ex'.store := by
  have hreduce : (Start.statementlist sampleCommand).reduce .zero = _ :=
    sampleCommand.reduce_zero rfl
  exact xplcmd_sends hreduce Visits.start rfl ⟨rfl, rfl, rfl⟩ rfl rfl rfl

end XplEvent.Script
