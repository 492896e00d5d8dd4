import XplEvent.Base

/-!
# The hash symbol table

`ParseHashSTE_s` and `ParseHashKV_s` with the functions that search and
change them, when no database handle is involved. The string hash is a
parameter `UtilHash`: every lookup compares the stored hash first and the
strings after, so which function it is must not matter.
-/

namespace XplEvent.Script

/-- `ParseHashKV_s`. -/
structure ParseHashKV where
  hash : UInt32
  key : CString
  value : CString
deriving DecidableEq, Repr

/-- `ParseHashSTE_s`: a hash by name, with its key list from `head` on. -/
structure ParseHashSTE where
  hash : UInt32
  name : CString
  kvs : List ParseHashKV
deriving DecidableEq, Repr

section

variable (UtilHash : CString → UInt32)

/-- The comparison `findHash` makes on each entry. -/
def ParseHashSTE.isNamed (hashName : CString) (se : ParseHashSTE) : Bool :=
  se.hash = UtilHash hashName ∧ hashName = se.name

/-- The comparison the key walks make on each entry. -/
def ParseHashKV.isKeyed (key : CString) (ke : ParseHashKV) : Bool :=
  UtilHash key = ke.hash ∧ ke.key = key

/-- `findHash`. -/
def findHash (steHead : List ParseHashSTE) (hashName : CString) : Option ParseHashSTE :=
  steHead.find? (ParseHashSTE.isNamed UtilHash hashName)

/-- The in-memory half of `ParserHashGetValue`. -/
def hashGetValue (steHead : List ParseHashSTE) (hashName key : CString) : Option CString :=
  match findHash UtilHash steHead hashName with
  | none => none
  | some h => (h.kvs.find? (ParseHashKV.isKeyed UtilHash key)).map ParseHashKV.value

/-- The list walk of `ParserHashAddKeyValue`: replace the entry with the
same key where it stands, or append. -/
def putKey (keNew : ParseHashKV) : List ParseHashKV → List ParseHashKV
  | [] => [keNew]
  | ke :: kes =>
    if keNew.hash = ke.hash ∧ ke.key = keNew.key then keNew :: kes else ke :: putKey keNew kes

/-- `hashAppend`: the entry of a hash that was not in the table. -/
def hashAppend (hashName : CString) : ParseHashSTE := ⟨UtilHash hashName, hashName, []⟩

/-- The in-memory half of `ParserHashAddKeyValue`: find the hash, or
append it to the table, and put the pair in its key list. -/
def hashAddKeyValue (steHead : List ParseHashSTE) (hashName key value : CString) :
    List ParseHashSTE :=
  let keNew : ParseHashKV := ⟨UtilHash key, key, value⟩
  match steHead with
  | [] => [{ hashAppend UtilHash hashName with kvs := putKey keNew [] }]
  | se :: rest =>
    if se.isNamed UtilHash hashName then { se with kvs := putKey keNew se.kvs } :: rest
    else se :: hashAddKeyValue rest hashName key value

/-- `deleteHashContents` on the entry `findHash` finds. -/
def deleteHashContents (steHead : List ParseHashSTE) (hashName : CString) : List ParseHashSTE :=
  match steHead with
  | [] => []
  | se :: rest =>
    if se.isNamed UtilHash hashName then { se with kvs := [] } :: rest
    else se :: deleteHashContents rest hashName

end

end XplEvent.Script
