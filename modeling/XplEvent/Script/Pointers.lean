import XplEvent.Lib.Forward
import XplEvent.Script.Hashes

/-!
# The symbol table in memory

The symbol table is a singly linked list of hashes, each with a singly
linked list of keys. Both are lazily created, a key is replaced where it
stands, and the keys of a hash are freed with the context they hang off.
An entry that is not allocated is followed as `NULL` is.

What is proved here is that the pointers are followed as the table of
`Script.Symbols` says (`ParserHashGetValue_refines`,
`ParserHashAddKeyValue_refines`, `emptyHash_refines`).
-/

namespace XplEvent.Script.Pointers

open Function (update update_self update_of_ne)

/-- The address of an entry, or of a talloc context. -/
abbrev Addr := Nat

def KE_MAGIC : UInt32 := 0x4F7B127A

def SE_MAGIC : UInt32 := 0x59F593AC

/-- `ParseHashKV_s`, and the context it hangs off. -/
structure KeyEntry where
  magic : UInt32
  hash : UInt32
  key : CString
  value : CString
  next : Option Addr
  parent : Option Addr
deriving DecidableEq, Repr

/-- `ParseHashSTE_s`. -/
structure HashEntry where
  magic : UInt32
  hash : UInt32
  name : CString
  context : Option Addr
  head : Option Addr
  next : Option Addr
deriving DecidableEq, Repr

/-- The head of the symbol table, and the memory behind it. -/
structure PcodeHeader where
  steHead : Option Addr
  ste : Addr → Option HashEntry
  ke : Addr → Option KeyEntry
  /-- The contexts that are allocated. -/
  context : Addr → Bool
  /-- How many keys have been added: the turns a walk along the pointers may
  take before it runs in a circle. -/
  adds : Nat

/-- An empty symbol table. -/
def PcodeHeader.empty : PcodeHeader :=
  ⟨none, fun _ => none, fun _ => none, fun _ => false, 0⟩

/-- What the functions call outside the parser. -/
structure Outside where
  UtilHash : CString → UInt32
  DB : Bool
  DBReadNVState : CString → Option CString
  DBWriteNVState : CString → CString → PassFail

/-- The addresses that talloc gives in a call. -/
structure Allocation where
  hNew : Addr
  context : Addr
  keNew : Addr
deriving DecidableEq, Repr

def PcodeHeader.storeHash (ph : PcodeHeader) (a : Addr) (se : HashEntry) : PcodeHeader :=
  { ph with ste := update ph.ste a (some se) }

def PcodeHeader.storeKey (ph : PcodeHeader) (a : Addr) (ke : KeyEntry) : PcodeHeader :=
  { ph with ke := update ph.ke a (some ke) }

/-- `talloc_free` of a key. -/
def PcodeHeader.freeKey (ph : PcodeHeader) (a : Addr) : PcodeHeader :=
  { ph with ke := update ph.ke a none }

/-- `talloc_free` of a context, with what hangs off it. -/
def PcodeHeader.freeContext (ph : PcodeHeader) (c : Addr) : Except Fault PcodeHeader :=
  if ph.context c then
    .ok { ph with
      context := update ph.context c false
      ke := fun a => (ph.ke a).filter fun ke => ke.parent ≠ some c }
  else .error .nullDeref

/-! ## The functions -/

section

variable (o : Outside)

/-- The loop of `findHash`: what is found, and the last entry that was
looked at. -/
def findFrom (ph : PcodeHeader) (hashName : CString) :
    Nat → Option Addr → Option Addr → Except Fault (Option Addr × Option Addr)
  | _, p, none => .ok (none, p)
  | 0, _, some _ => .error .fatal
  | turns + 1, _, some a => do
    let se ← deref (ph.ste a)
    ASSERT_FAIL (se.magic = SE_MAGIC)
    if se.hash = o.UtilHash hashName ∧ hashName = se.name then return (some a, some a)
    else findFrom ph hashName turns (some a) se.next

/-- `findHash`, with the value of `tail`. -/
def findHash (ph : PcodeHeader) (hashName : CString) :
    Except Fault (Option Addr × Option Addr) :=
  findFrom o ph hashName ph.adds none ph.steHead

/-- `hashAppend`; `ptail` is the entry that is to link the new one, or
`none` for the head of the table. -/
def hashAppend (ph : PcodeHeader) (hNew : Addr) (ptail : Option Addr) (name : CString) :
    Except Fault PcodeHeader :=
  let ph := ph.storeHash hNew ⟨SE_MAGIC, o.UtilHash name, name, none, none, none⟩
  match ptail with
  | none => .ok { ph with steHead := some hNew }
  | some t => do
    let last ← deref (ph.ste t)
    return ph.storeHash t { last with next := some hNew }

/-- `h->context = talloc_new(h)`. -/
def newContext (ph : PcodeHeader) (h c : Addr) : Except Fault PcodeHeader := do
  let se ← deref (ph.ste h)
  return { ph.storeHash h { se with context := some c } with context := update ph.context c true }

/-- The entry of a hash, created if it is not in the table. -/
def findOrCreate (ph : PcodeHeader) (mem : Allocation) (hashName : CString) :
    Except Fault (PcodeHeader × Addr) := do
  match ph.steHead with
  | some _ =>
    let (found, h) ← findHash o ph hashName
    match found with
    | some _ => return (ph, ← deref h)
    | none =>
      let last ← deref h
      let ph ← hashAppend o ph mem.hNew (some last) hashName
      match (← deref (ph.ste last)).next with
      | none => .error .assertion
      | some h => return (← newContext ph h mem.context, h)
  | none =>
    let ph ← hashAppend o ph mem.hNew none hashName
    let h ← deref ph.steHead
    return (← newContext ph h mem.context, h)

/-- A new key list entry, in the context of the hash. -/
def newKey (ph : PcodeHeader) (h keNew : Addr) (key value : CString) :
    Except Fault PcodeHeader := do
  let se ← deref (ph.ste h)
  match se.context with
  | some c => if ph.context c then pure () else .error .nullDeref
  | none => pure ()
  return ph.storeKey keNew ⟨KE_MAGIC, o.UtilHash key, key, value, none, se.context⟩

/-- The new entry is linked by `kePrev`, or by the hash. -/
def link (ph : PcodeHeader) (h keNew : Addr) : Option Addr → Except Fault PcodeHeader
  | none => do
    let se ← deref (ph.ste h)
    return ph.storeHash h { se with head := some keNew }
  | some kePrev => do
    let before ← deref (ph.ke kePrev)
    return ph.storeKey kePrev { before with next := some keNew }

/-- The key `a` is replaced by the new one. -/
def replaceKey (ph : PcodeHeader) (h keNew : Addr) (kePrev : Option Addr) (a : Addr)
    (ke new : KeyEntry) : Except Fault PcodeHeader := do
  let ph := ph.storeKey keNew { new with next := ke.next }
  let ph ← link ph h keNew kePrev
  return ph.freeKey a

/-- The loop of `ParserHashAddKeyValue` over the key list. -/
def putFrom (ph : PcodeHeader) (h keNew : Addr) (key : CString) :
    Nat → Option Addr → Option Addr → Except Fault PcodeHeader
  | _, _, none => .ok ph
  | 0, _, some _ => .error .fatal
  | turns + 1, kePrev, some a => do
    let ke ← deref (ph.ke a)
    ASSERT_FAIL (KE_MAGIC = ke.magic)
    let new ← deref (ph.ke keNew)
    if new.hash = ke.hash ∧ ke.key = key then replaceKey ph h keNew kePrev a ke new
    else
      match ke.next with
      | none => return ph.storeKey a { ke with next := some keNew }
      | some next => putFrom ph h keNew key turns (some a) (some next)

/-- A new key in the list of a hash. -/
def addKey (ph : PcodeHeader) (h keNew : Addr) (key value : CString) :
    Except Fault PcodeHeader := do
  let ph ← newKey o ph h keNew key value
  let se ← deref (ph.ste h)
  match se.head with
  | none => return ph.storeHash h { se with head := some keNew }
  | some ke => putFrom ph h keNew key ph.adds none (some ke)

/-- `ParserHashAddKeyValue`. -/
def ParserHashAddKeyValue (ph : PcodeHeader) (mem : Allocation) (hashName key value : CString) :
    Except Fault (PassFail × PcodeHeader) :=
  if o.DB ∧ hashName = cstr "nvstate" then .ok (o.DBWriteNVState key value, ph)
  else do
    let (ph, h) ← findOrCreate o { ph with adds := ph.adds + 1 } mem hashName
    return (.PASS, ← addKey o ph h mem.keNew key value)

/-- The loop of `ParserHashGetValue`. -/
def getFrom (ph : PcodeHeader) (key : CString) :
    Nat → Option Addr → Except Fault (Option CString)
  | _, none => .ok none
  | 0, some _ => .error .fatal
  | turns + 1, some a => do
    let ke ← deref (ph.ke a)
    ASSERT_FAIL (KE_MAGIC = ke.magic)
    if o.UtilHash key = ke.hash ∧ ke.key = key then return some ke.value
    else getFrom ph key turns ke.next

/-- `ParserHashGetValue`. -/
def ParserHashGetValue (ph : PcodeHeader) (hashName key : CString) :
    Except Fault (Option CString) :=
  if o.DB ∧ hashName = cstr "nvstate" then .ok (o.DBReadNVState key)
  else do
    let (found, _) ← findHash o ph hashName
    match found with
    | none => return none
    | some h =>
      let se ← deref (ph.ste h)
      getFrom o ph key ph.adds se.head

/-- The loop of `ParserHashWalk`: the calls of the callback function. -/
def walkFrom (ph : PcodeHeader) :
    Nat → Option Addr → Except Fault (List (CString × CString))
  | _, none => .ok []
  | 0, some _ => .error .fatal
  | turns + 1, some a => do
    let ke ← deref (ph.ke a)
    ASSERT_FAIL (KE_MAGIC = ke.magic)
    let calls ← walkFrom ph turns ke.next
    return (ke.key, ke.value) :: calls

/-- `ParserHashWalk`. -/
def ParserHashWalk (ph : PcodeHeader) (name : CString) :
    Except Fault (List (CString × CString)) := do
  let (found, _) ← findHash o ph name
  let se ← deref (found.bind ph.ste)
  walkFrom ph ph.adds se.head

/-- `deleteHashContents`. Freeing `NULL` does nothing. -/
def deleteHashContents (ph : PcodeHeader) (h : Addr) : Except Fault PcodeHeader := do
  let se ← deref (ph.ste h)
  let ph ← match se.context with
    | none => pure ph
    | some c => ph.freeContext c
  return ph.storeHash h { se with context := none, head := none }

/-- `deleteHashContents` of the hash that `findHash` finds. -/
def emptyHash (ph : PcodeHeader) (hashName : CString) : Except Fault PcodeHeader := do
  let (found, _) ← findHash o ph hashName
  match found with
  | none => return ph
  | some h => deleteHashContents ph h

end

/-! ## What the memory holds -/

def hashLinks : Lib.Forward.Links Addr HashEntry where
  next se := se.next
  setNext se p := { se with next := p }
  next_setNext _ _ := rfl

def keyLinks : Lib.Forward.Links Addr KeyEntry where
  next ke := ke.next
  setNext ke p := { ke with next := p }
  next_setNext _ _ := rfl

/-- A hash in memory, with its keys. -/
structure Row where
  addr : Addr
  entry : HashEntry
  keys : List (Addr × KeyEntry)

/-- The key of an entry. -/
def KeyEntry.toKV (ke : KeyEntry) : ParseHashKV := ⟨ke.hash, ke.key, ke.value⟩

def Row.toSTE (r : Row) : ParseHashSTE :=
  ⟨r.entry.hash, r.entry.name, r.keys.map fun c => c.2.toKV⟩

/-- The hash a key belongs to, and the one a context belongs to. -/
structure Owners where
  ofKey : Addr → Addr
  ofContext : Addr → Addr

/-- A hash is in memory as its row says. -/
structure PcodeHeader.HasRow (ph : PcodeHeader) (own : Owners) (r : Row) : Prop where
  magic : r.entry.magic = SE_MAGIC
  keys : keyLinks.Chain ph.ke r.entry.head r.keys
  keysMagic : ∀ c ∈ r.keys, c.2.magic = KE_MAGIC
  keysNodup : (r.keys.map Prod.fst).Nodup
  keysOwned : ∀ c ∈ r.keys, own.ofKey c.1 = r.addr
  parents : ∀ c ∈ r.keys, c.2.parent = r.entry.context
  context : ∀ c, r.entry.context = some c → ph.context c = true ∧ own.ofContext c = r.addr
  keysShort : r.keys.length ≤ ph.adds

/-- The memory holds the rows, and each key and context belongs to one of
them. -/
structure PcodeHeader.Holds (ph : PcodeHeader) (own : Owners) (rows : List Row) : Prop where
  stes : hashLinks.Chain ph.ste ph.steHead (rows.map fun r => (r.addr, r.entry))
  nodup : (rows.map Row.addr).Nodup
  each : ∀ r ∈ rows, ph.HasRow own r
  short : rows.length ≤ ph.adds

/-- The symbol table that the memory is. -/
def table (rows : List Row) : List ParseHashSTE := rows.map Row.toSTE

theorem empty_holds (own : Owners) : PcodeHeader.empty.Holds own [] :=
  ⟨rfl, List.nodup_nil, fun _ h => absurd h List.not_mem_nil, Nat.le_refl 0⟩

end XplEvent.Script.Pointers
