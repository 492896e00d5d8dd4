import XplEvent.Script.InMemory

/-!
# The hash store over its history

Keys are added to hashes and hashes are emptied, in any order. What the
memory holds then is what the calls say: a key has the value it was given
last since its hash was emptied, and the keys of a hash stand in the order
in which they came first. The string hash does not matter.
-/

namespace XplEvent.Script.Pointers

open Lib (lookup putAll)

/-- A call of the hash store, with the addresses that talloc gives. -/
inductive HashOp
  | add (mem : Allocation) (hashName key value : CString)
  | empty (hashName : CString)
deriving DecidableEq, Repr

def HashOp.hashName : HashOp → CString
  | .add _ hashName _ _ => hashName
  | .empty hashName => hashName

/-- The database is not involved. -/
def InMemory (o : Outside) (hashName : CString) : Prop :=
  ¬ (o.DB = true ∧ hashName = cstr "nvstate")

/-- A call. -/
def HashOp.run (o : Outside) (ph : PcodeHeader) : HashOp → Except Fault PcodeHeader
  | .add mem hashName key value => do
    let (_, ph) ← ParserHashAddKeyValue o ph mem hashName key value
    return ph
  | .empty hashName => emptyHash o ph hashName

/-- Talloc gives memory that is not in use. -/
def HashOp.Allocates (ph : PcodeHeader) : HashOp → Prop
  | .add mem _ _ _ => ph.Allocates mem
  | .empty _ => True

/-- The calls one after the other. -/
def run (o : Outside) : PcodeHeader → List HashOp → Except Fault PcodeHeader
  | ph, [] => .ok ph
  | ph, op :: ops => do
    let ph ← op.run o ph
    run o ph ops

def AllAllocate (o : Outside) : PcodeHeader → List HashOp → Prop
  | _, [] => True
  | ph, op :: ops => op.Allocates ph ∧
    match op.run o ph with
    | .ok ph => AllAllocate o ph ops
    | .error _ => True

/-! ## What the calls say -/

/-- The pairs of a hash behind a call. -/
def pairsBehind (hashName : CString) (pairs : List (CString × CString)) :
    HashOp → List (CString × CString)
  | .add _ name key value => if hashName = name then pairs ++ [(key, value)] else pairs
  | .empty name => if hashName = name then [] else pairs

/-- The pairs that were added to a hash since it was last emptied. -/
def pairsSince (hashName : CString) (ops : List HashOp) : List (CString × CString) :=
  ops.foldl (pairsBehind hashName) []

/-- The value a key was given last since its hash was last emptied. -/
def lastValue (hashName key : CString) (ops : List HashOp) : Option CString :=
  (lookup Prod.fst (pairsSince hashName ops).reverse key).map Prod.snd

/-- A key was added to the hash at some time. -/
def Created (hashName : CString) (ops : List HashOp) : Prop :=
  ∃ mem key value, HashOp.add mem hashName key value ∈ ops

/-- **The memory holds what the calls say.** -/
structure Remembers (o : Outside) (ops : List HashOp) (ph : PcodeHeader) : Prop where
  /-- The value of a key is the last one since the hash was emptied. -/
  value : ∀ hashName key, InMemory o hashName →
    ParserHashGetValue o ph hashName key = .ok (lastValue hashName key ops)
  /-- The keys of a hash are different and in the order in which they came
  first since then. -/
  keys : ∀ hashName, Created hashName ops → ∃ pairs, ParserHashWalk o ph hashName = .ok pairs ∧
    (pairs.map Prod.fst).Nodup ∧
    pairs.map Prod.fst = ((pairsSince hashName ops).map Prod.fst).eraseDups ∧
    ∀ p ∈ pairs, lastValue hashName p.1 ops = some p.2
  /-- A call leaves the other hashes as they are. -/
  others : ∀ (op : HashOp) (ph' : PcodeHeader), op.Allocates ph → InMemory o op.hashName →
    op.run o ph = .ok ph' → ∀ hashName, hashName ≠ op.hashName →
      (∀ key, ParserHashGetValue o ph' hashName key = ParserHashGetValue o ph hashName key) ∧
        ParserHashWalk o ph' hashName = ParserHashWalk o ph hashName

/-! ## The table over its history -/

variable {o : Outside} {ph : PcodeHeader} {own : Owners}

/-- What a call makes of the table. -/
def HashOp.onTable (UtilHash : CString → UInt32) (steHead : List ParseHashSTE) :
    HashOp → List ParseHashSTE
  | .add _ hashName key value => hashAddKeyValue UtilHash steHead hashName key value
  | .empty hashName => Script.deleteHashContents UtilHash steHead hashName

/-- A table holds what the calls say. -/
structure Records (UtilHash : CString → UInt32) (ops : List HashOp) (steHead : List ParseHashSTE) :
    Prop where
  hashed : Hashed UtilHash steHead
  keyLists : ∀ hashName, keyList UtilHash steHead hashName =
    putAll ParseHashKV.key [] ((pairsSince hashName ops).map fun p => keyEntry UtilHash p.1 p.2)
  created : ∀ hashName, Created hashName ops → (Script.findHash UtilHash steHead hashName).isSome = true

theorem records_nil (UtilHash : CString → UInt32) : Records UtilHash [] [] where
  hashed := hashed_nil
  keyLists _ := rfl
  created hashName h := by
    obtain ⟨mem, key, value, hmem⟩ := h
    cases hmem

theorem pairsSince_append (hashName : CString) (ops : List HashOp) (op : HashOp) :
    pairsSince hashName (ops ++ [op]) = pairsBehind hashName (pairsSince hashName ops) op :=
  List.foldl_append

/-- **One call**: the table and what the calls say change alike. -/
theorem Records.step {UtilHash : CString → UInt32} {ops : List HashOp} {steHead : List ParseHashSTE}
    (h : Records UtilHash ops steHead) (op : HashOp) :
    Records UtilHash (ops ++ [op]) (op.onTable UtilHash steHead) := by
  cases op with
  | add mem name key value =>
    refine ⟨h.hashed.add name key value, fun hashName => ?_, fun hashName hcreated => ?_⟩
    · show keyList UtilHash (hashAddKeyValue UtilHash steHead name key value) hashName = _
      rw [keyList_add h.hashed, pairsSince_append, pairsBehind]
      by_cases hname : hashName = name
      · rw [if_pos hname, if_pos hname, List.map_append, putAll, List.foldl_append, ← hname,
          h.keyLists hashName]
        rfl
      · rw [if_neg hname, if_neg hname]
        exact h.keyLists hashName
    · show (Script.findHash UtilHash (hashAddKeyValue UtilHash steHead name key value)
        hashName).isSome = true
      by_cases hname : hashName = name
      · rw [hname]
        exact findHash_add h.hashed name key value
      · rw [findHash_add_of_ne h.hashed hname]
        obtain ⟨mem', key', value', hmem⟩ := hcreated
        rcases List.mem_append.mp hmem with hmem | hmem
        · exact h.created hashName ⟨mem', key', value', hmem⟩
        · rw [List.mem_singleton] at hmem
          cases hmem
          exact absurd rfl hname
  | empty name =>
    refine ⟨h.hashed.delete name, fun hashName => ?_, fun hashName hcreated => ?_⟩
    · show keyList UtilHash (Script.deleteHashContents UtilHash steHead name) hashName = _
      rw [keyList_delete, pairsSince_append, pairsBehind]
      by_cases hname : hashName = name
      · rw [if_pos hname, if_pos hname]
        rfl
      · rw [if_neg hname, if_neg hname]
        exact h.keyLists hashName
    · show (Script.findHash UtilHash (Script.deleteHashContents UtilHash steHead name)
        hashName).isSome = true
      obtain ⟨mem', key', value', hmem⟩ := hcreated
      rw [findHash_delete, Option.isSome_map]
      rcases List.mem_append.mp hmem with hmem | hmem
      · exact h.created hashName ⟨mem', key', value', hmem⟩
      · rw [List.mem_singleton] at hmem
        cases hmem

/-- A value of the key list is the last one. -/
theorem Records.lastValue_eq {UtilHash : CString → UInt32} {ops : List HashOp}
    {steHead : List ParseHashSTE} (h : Records UtilHash ops steHead) (hashName key : CString) :
    (lookup ParseHashKV.key (keyList UtilHash steHead hashName) key).map ParseHashKV.value =
      lastValue hashName key ops := by
  rw [h.keyLists, Lib.lookup_putAll, ← List.map_reverse, Lib.lookup_map, lastValue]
  show ((Option.map _ (lookup Prod.fst (pairsSince hashName ops).reverse key)).or none).map _ = _
  rw [Option.or_none, Option.map_map]
  rfl

/-- A call leaves the other entries of the table. -/
theorem findHash_onTable {UtilHash : CString → UInt32} {steHead : List ParseHashSTE}
    (h : Hashed UtilHash steHead) {op : HashOp} {hashName : CString} (hne : hashName ≠ op.hashName) :
    Script.findHash UtilHash (op.onTable UtilHash steHead) hashName =
      Script.findHash UtilHash steHead hashName := by
  cases op with
  | add mem name key value => exact findHash_add_of_ne h hne key value
  | empty name =>
    refine (findHash_delete _ name hashName).trans ?_
    simp only [if_neg (show ¬ hashName = name from hne), Option.map_id']

/-! ## The memory over its history -/

/-- **A call does to the memory what it does to the table.** -/
theorem HashOp.run_refines {rows : List Row} (h : ph.Holds own rows) {op : HashOp}
    (hmem : op.Allocates ph) (hDB : InMemory o op.hashName) : ∃ ph' own' rows',
      op.run o ph = .ok ph' ∧ ph'.Holds own' rows' ∧
      table rows' = op.onTable o.UtilHash (table rows) := by
  cases op with
  | add mem hashName key value =>
    obtain ⟨ph', own', rows', hadd, hholds, htable⟩ :=
      ParserHashAddKeyValue_refines h hmem (show InMemory o hashName from hDB) key value
    refine ⟨ph', own', rows', ?_, hholds, htable⟩
    rw [HashOp.run, hadd]
    rfl
  | empty hashName =>
    obtain ⟨ph', rows', hempty, hholds, htable⟩ := emptyHash_refines h hashName
    exact ⟨ph', own, rows', hempty, hholds, htable⟩

/-- A run does to the memory what the calls do to the table. -/
theorem run_records {past ops : List HashOp} {rows : List Row} (h : ph.Holds own rows)
    (hrecords : Records o.UtilHash past (table rows)) (hmem : AllAllocate o ph ops)
    (hDB : ∀ op ∈ ops, InMemory o op.hashName) : ∃ ph' own' rows', run o ph ops = .ok ph' ∧
      ph'.Holds own' rows' ∧ Records o.UtilHash (past ++ ops) (table rows') := by
  induction ops generalizing past ph own rows with
  | nil =>
    refine ⟨ph, own, rows, rfl, h, ?_⟩
    rw [List.append_nil]
    exact hrecords
  | cons op ops ih =>
    obtain ⟨hallocates, hrest⟩ := hmem
    obtain ⟨ph₁, own₁, rows₁, hrun, hholds, htable⟩ :=
      op.run_refines h hallocates (hDB op List.mem_cons_self)
    have hstep := hrecords.step op
    rw [← htable] at hstep
    rw [hrun] at hrest
    obtain ⟨ph₂, own₂, rows₂, hruns, hholds₂, hrecords₂⟩ := ih hholds hstep hrest
      fun op' hop' => hDB op' (List.mem_cons_of_mem op hop')
    refine ⟨ph₂, own₂, rows₂, ?_, hholds₂, ?_⟩
    · rw [run, hrun]
      exact hruns
    · rw [List.append_assoc] at hrecords₂
      exact hrecords₂

/-- A memory with a table that holds what the calls say. -/
theorem remembers_of_records {ops : List HashOp} {rows : List Row} (h : ph.Holds own rows)
    (hrecords : Records o.UtilHash ops (table rows)) : Remembers o ops ph where
  value hashName key hDB := by
    rw [ParserHashGetValue_refines h hashName key hDB, hashGetValue_eq hrecords.hashed,
      hrecords.lastValue_eq]
  keys hashName hcreated := by
    obtain ⟨se, hse⟩ := Option.isSome_iff_exists.mp (hrecords.created hashName hcreated)
    have hlist : keyList o.UtilHash (table rows) hashName = se.kvs := by
      rw [keyList, hse]
    have hkeyed : Lib.Keyed ParseHashKV.key se.kvs := by
      rw [← hlist, hrecords.keyLists]
      have hempty : Lib.Keyed ParseHashKV.key [] := List.nodup_nil
      exact hempty.putAll _
    have hnames : (se.kvs.map fun kv => (kv.key, kv.value)).map Prod.fst =
        se.kvs.map ParseHashKV.key := by
      rw [List.map_map]
      rfl
    refine ⟨se.kvs.map fun kv => (kv.key, kv.value), ?_, ?_, ?_, ?_⟩
    · rw [ParserHashWalk_refines h, hse]
      rfl
    · rw [hnames]
      exact hkeyed
    · rw [hnames, ← hlist, hrecords.keyLists, Lib.keys_putAll, List.map_map]
      rfl
    · intro p hp
      obtain ⟨kv, hkv, rfl⟩ := List.mem_map.mp hp
      rw [← hrecords.lastValue_eq, hlist, hkeyed.lookup_of_mem hkv]
      rfl
  others op ph' hmem hDB hrun hashName hne := by
    obtain ⟨ph₁, own₁, rows₁, hrun₁, hholds, htable⟩ := op.run_refines h hmem hDB
    cases hrun.symm.trans hrun₁
    have hfind := findHash_onTable hrecords.hashed hne
    refine ⟨fun key => ?_, ?_⟩
    · by_cases hname : InMemory o hashName
      · rw [ParserHashGetValue_refines hholds hashName key hname,
          ParserHashGetValue_refines h hashName key hname, hashGetValue, hashGetValue, htable, hfind]
      · rw [ParserHashGetValue, ParserHashGetValue, if_pos (not_not.mp hname), if_pos (not_not.mp hname)]
    · rw [ParserHashWalk_refines hholds, ParserHashWalk_refines h, htable, hfind]

/-- **The hash store remembers what it is told**, for any calls and
whatever the string hash is. -/
theorem hashStore_remembers {o : Outside} {ops : List HashOp}
    (hmem : AllAllocate o .empty ops) (hDB : ∀ op ∈ ops, InMemory o op.hashName) :
    ∃ ph, run o .empty ops = .ok ph ∧ Remembers o ops ph := by
  obtain ⟨ph, own, rows, hrun, hholds, hrecords⟩ :=
    run_records (empty_holds ⟨fun a => a, fun a => a⟩) (records_nil o.UtilHash) hmem hDB
  exact ⟨ph, hrun, remembers_of_records hholds hrecords⟩

/-- Every string has the hash 0, and there is a database. -/
def Outside.colliding : Outside := ⟨fun _ => 0, true, fun _ => none, fun _ _ => .PASS⟩

/-- Two hashes with three keys: one is replaced in front, and one hash is
emptied and filled again. -/
def sampleOps : List HashOp :=
  [.add ⟨0, 0, 0⟩ (cstr "a") (cstr "x") (cstr "1"), .add ⟨1, 1, 1⟩ (cstr "b") (cstr "x") (cstr "2"),
    .add ⟨2, 2, 2⟩ (cstr "a") (cstr "y") (cstr "3"), .add ⟨2, 2, 3⟩ (cstr "a") (cstr "x") (cstr "4"),
    .empty (cstr "b"), .add ⟨2, 2, 1⟩ (cstr "b") (cstr "z") (cstr "5")]

theorem sampleOps_remembered :
    ∃ ph, run .colliding .empty sampleOps = .ok ph ∧ Remembers .colliding sampleOps ph := by
  refine hashStore_remembers ?_ ?_
  · exact ⟨⟨rfl, rfl, rfl⟩, ⟨rfl, rfl, rfl⟩, ⟨rfl, rfl, rfl⟩, ⟨rfl, rfl, rfl⟩, trivial,
      ⟨rfl, rfl, rfl⟩, trivial⟩
  · intro op hop
    revert op
    simp only [sampleOps, List.forall_mem_cons, InMemory, HashOp.hashName]
    decide

end XplEvent.Script.Pointers
