import Mathlib.Data.List.Nodup
import XplEvent.Script.Pointers

/-!
# The pointers refine the table

Every function that follows the pointers of the symbol table does to the
table the memory holds what its function in `Script.Symbols` does, and none
fails. A step changes one row; the other rows stay because each key and
each context belongs to one hash.
-/

namespace XplEvent.Script.Pointers

open Function (update update_self update_of_ne)

variable {o : Outside} {ph ph' : PcodeHeader} {own own' : Owners}

/-! ## Searches -/

/-- The comparison `findHash` makes. -/
def Row.named (o : Outside) (hashName : CString) (r : Row) : Bool :=
  r.toSTE.isNamed o.UtilHash hashName

theorem findFrom_eq (hashName : CString) {rows : List Row} {start : Option Addr}
    (h : hashLinks.Chain ph.ste start (rows.map fun r => (r.addr, r.entry)))
    (hmagic : ∀ r ∈ rows, r.entry.magic = SE_MAGIC) {turns : Nat} (hturns : rows.length ≤ turns)
    (p : Option Addr) : findFrom o ph hashName turns p start =
      .ok (match rows.find? (Row.named o hashName) with
        | some r => (some r.addr, some r.addr)
        | none => (none, (rows.map Row.addr).getLast?.or p)) := by
  induction rows generalizing start turns p with
  | nil =>
    rw [show start = none from h]
    cases turns with
    | zero => rfl
    | succ turns => rfl
  | cons r rows ih =>
    obtain ⟨hstart, hcell, hrest⟩ := h
    obtain ⟨turns, rfl⟩ : ∃ n, turns = n + 1 := ⟨turns - 1, by
      have hlen : (r :: rows).length = rows.length + 1 := rfl
      omega⟩
    have hm := hmagic r List.mem_cons_self
    rw [hstart, findFrom, hcell]
    simp only [deref_some, ok_bind, hm, decide_true, ASSERT_FAIL_true]
    by_cases hnamed : r.entry.hash = o.UtilHash hashName ∧ hashName = r.entry.name
    · have hr : Row.named o hashName r = true := decide_eq_true hnamed
      rw [if_pos hnamed, List.find?_cons_of_pos hr]
      rfl
    · have hr : ¬ Row.named o hashName r = true := fun heq => hnamed (of_decide_eq_true heq)
      have hnext := ih hrest (fun s hs => hmagic s (List.mem_cons_of_mem r hs))
        (Nat.le_of_succ_le_succ hturns) (some r.addr)
      rw [Option.or_some] at hnext
      rw [if_neg hnamed, List.find?_cons_of_neg hr, List.map_cons, List.getLast?_cons,
        Option.some_or]
      exact hnext

/-- **`findHash` finds the first entry of the table that has the name.** -/
theorem findHash_eq {rows : List Row} (h : ph.Holds own rows) (hashName : CString) :
    findHash o ph hashName = .ok (match rows.find? (Row.named o hashName) with
      | some r => (some r.addr, some r.addr)
      | none => (none, (rows.map Row.addr).getLast?)) := by
  have hfind := findFrom_eq (o := o) hashName h.stes (fun r hr => (h.each r hr).magic) h.short none
  rw [Option.or_none] at hfind
  exact hfind

theorem getFrom_eq (key : CString) {keys : List (Addr × KeyEntry)} {start : Option Addr}
    (h : keyLinks.Chain ph.ke start keys) (hmagic : ∀ c ∈ keys, c.2.magic = KE_MAGIC) {turns : Nat}
    (hturns : keys.length ≤ turns) : getFrom o ph key turns start =
      .ok (((keys.map fun c => c.2.toKV).find? (ParseHashKV.isKeyed o.UtilHash key)).map
        ParseHashKV.value) := by
  induction keys generalizing start turns with
  | nil =>
    rw [show start = none from h]
    cases turns with
    | zero => rfl
    | succ turns => rfl
  | cons c keys ih =>
    obtain ⟨hstart, hcell, hrest⟩ := h
    obtain ⟨turns, rfl⟩ : ∃ n, turns = n + 1 := ⟨turns - 1, by
      have hlen : (c :: keys).length = keys.length + 1 := rfl
      omega⟩
    have hm := hmagic c List.mem_cons_self
    rw [hstart, getFrom, hcell]
    simp only [deref_some, ok_bind, hm, decide_true, ASSERT_FAIL_true]
    by_cases hkeyed : o.UtilHash key = c.2.hash ∧ c.2.key = key
    · have hc : c.2.toKV.isKeyed o.UtilHash key = true := decide_eq_true hkeyed
      rw [if_pos hkeyed, List.map_cons, List.find?_cons_of_pos hc]
      rfl
    · have hc : ¬ c.2.toKV.isKeyed o.UtilHash key = true :=
        fun heq => hkeyed (of_decide_eq_true heq)
      rw [if_neg hkeyed, List.map_cons, List.find?_cons_of_neg hc]
      exact ih hrest (fun c' hc' => hmagic c' (List.mem_cons_of_mem c hc'))
        (Nat.le_of_succ_le_succ hturns)

theorem table_middle (pre post : List Row) (r : Row) :
    table (pre ++ r :: post) = table pre ++ r.toSTE :: table post := by
  rw [table, List.map_append, List.map_cons]
  rfl

theorem find?_table (rows : List Row) (hashName : CString) :
    Script.findHash o.UtilHash (table rows) hashName =
      (rows.find? (Row.named o hashName)).map Row.toSTE := by
  rw [Script.findHash, table, List.find?_map]
  rfl

/-- **A value is the one the table has.** -/
theorem ParserHashGetValue_refines {rows : List Row} (h : ph.Holds own rows) (hashName key : CString)
    (hDB : ¬ (o.DB = true ∧ hashName = cstr "nvstate")) :
    ParserHashGetValue o ph hashName key =
      .ok (hashGetValue o.UtilHash (table rows) hashName key) := by
  rw [ParserHashGetValue, if_neg hDB, findHash_eq h, hashGetValue, find?_table]
  cases hfound : rows.find? (Row.named o hashName) with
  | none => rfl
  | some r =>
    have hr := List.mem_of_find?_eq_some hfound
    have hrow := h.each r hr
    have hcell := h.stes.allocated (List.mem_map_of_mem (f := fun r => (r.addr, r.entry)) hr)
    simp only [ok_bind, hcell, deref_some, Option.map_some]
    exact getFrom_eq key hrow.keys hrow.keysMagic hrow.keysShort

theorem walkFrom_eq {keys : List (Addr × KeyEntry)} {start : Option Addr}
    (h : keyLinks.Chain ph.ke start keys) (hmagic : ∀ c ∈ keys, c.2.magic = KE_MAGIC) {turns : Nat}
    (hturns : keys.length ≤ turns) :
    walkFrom ph turns start = .ok (keys.map fun c => (c.2.key, c.2.value)) := by
  induction keys generalizing start turns with
  | nil =>
    rw [show start = none from h]
    cases turns with
    | zero => rfl
    | succ turns => rfl
  | cons c keys ih =>
    obtain ⟨hstart, hcell, hrest⟩ := h
    obtain ⟨turns, rfl⟩ : ∃ n, turns = n + 1 := ⟨turns - 1, by
      have hlen : (c :: keys).length = keys.length + 1 := rfl
      omega⟩
    have hm := hmagic c List.mem_cons_self
    have hwalk := ih hrest (fun c' hc' => hmagic c' (List.mem_cons_of_mem c hc'))
      (Nat.le_of_succ_le_succ hturns)
    rw [hstart, walkFrom, hcell]
    simp only [deref_some, ok_bind, hm, decide_true, ASSERT_FAIL_true]
    rw [show c.2.next = keyLinks.next c.2 from rfl, hwalk]
    rfl

/-- What `ParserHashWalk` calls back for, in a table: it follows the entry
that `findHash` gives without a test. -/
def walkCalls (se : Option ParseHashSTE) : Except Fault (List (CString × CString)) :=
  match se with
  | none => .error .nullDeref
  | some se => .ok (se.kvs.map fun kv => (kv.key, kv.value))

/-- **A walk over a hash calls back for each key in order.** -/
theorem ParserHashWalk_refines {rows : List Row} (h : ph.Holds own rows) (name : CString) :
    ParserHashWalk o ph name = walkCalls (Script.findHash o.UtilHash (table rows) name) := by
  rw [ParserHashWalk, findHash_eq h, find?_table]
  cases hfound : rows.find? (Row.named o name) with
  | none => rfl
  | some r =>
    have hmem := List.mem_of_find?_eq_some hfound
    have hrow := h.each r hmem
    have hcell := h.stes.allocated (List.mem_map_of_mem (f := fun r => (r.addr, r.entry)) hmem)
    simp only [ok_bind, Option.bind_some, hcell, deref_some]
    rw [walkFrom_eq hrow.keys hrow.keysMagic hrow.keysShort, Option.map_some, walkCalls, Row.toSTE,
      List.map_map]
    rfl

/-! ## One row changes -/

/-- A row stays if its keys and its context do. -/
theorem PcodeHeader.HasRow.frame {s : Row} (h : ph.HasRow own s)
    (hkeys : ∀ c ∈ s.keys, ph'.ke c.1 = ph.ke c.1 ∧ own'.ofKey c.1 = own.ofKey c.1)
    (hcontext : ∀ c, s.entry.context = some c →
      ph'.context c = ph.context c ∧ own'.ofContext c = own.ofContext c)
    (hadds : ph.adds ≤ ph'.adds) : ph'.HasRow own' s where
  magic := h.magic
  keys := h.keys.congr fun c hc => (hkeys c hc).1
  keysMagic := h.keysMagic
  keysNodup := h.keysNodup
  keysOwned c hc := (hkeys c hc).2.trans (h.keysOwned c hc)
  parents := h.parents
  context c hc := by
    obtain ⟨hallocated, howned⟩ := h.context c hc
    obtain ⟨hsame, hsame'⟩ := hcontext c hc
    exact ⟨hsame.trans hallocated, hsame'.trans howned⟩
  keysShort := Nat.le_trans h.keysShort hadds

/-- The addresses of the rows are different. -/
theorem PcodeHeader.Holds.addr_ne {pre post : List Row} {r : Row}
    (h : ph.Holds own (pre ++ r :: post)) : ∀ s ∈ pre ++ post, s.addr ≠ r.addr := by
  have hnodup := h.nodup
  rw [List.map_append, List.map_cons, List.nodup_middle, List.nodup_cons, ← List.map_append] at hnodup
  intro s hs heq
  exact hnodup.1 (heq ▸ List.mem_map_of_mem hs)

theorem mem_middle {α : Type} {pre post : List α} {r s : α} :
    s ∈ pre ++ r :: post ↔ s = r ∨ s ∈ pre ++ post := by
  rw [List.mem_append, List.mem_cons, List.mem_append]
  exact or_left_comm

/-- **A row is changed in place.** -/
theorem PcodeHeader.Holds.setRow {pre post : List Row} {r r' : Row}
    (h : ph.Holds own (pre ++ r :: post)) (haddr : r'.addr = r.addr)
    (hnext : r'.entry.next = r.entry.next) (hhead : ph'.steHead = ph.steHead)
    (hste : ph'.ste = update ph.ste r.addr (some r'.entry)) (hadds : ph.adds ≤ ph'.adds)
    (hrow : ph'.HasRow own' r') (hothers : ∀ s ∈ pre ++ post, ph'.HasRow own' s) :
    ph'.Holds own' (pre ++ r' :: post) where
  stes := by
    have hchain := h.stes
    have hnodup : (((pre ++ r :: post).map fun r => (r.addr, r.entry)).map Prod.fst).Nodup := by
      rw [List.map_map]
      exact h.nodup
    rw [List.map_append, List.map_cons] at hchain hnodup ⊢
    rw [hhead, hste, haddr]
    exact hchain.set hnodup hnext
  nodup := by
    have hnodup := h.nodup
    rw [List.map_append, List.map_cons] at hnodup ⊢
    rw [haddr]
    exact hnodup
  each s hs := by
    rcases mem_middle.mp hs with rfl | hs
    · exact hrow
    · exact hothers s hs
  short := by
    have hshort := h.short
    rw [List.length_append, List.length_cons] at hshort ⊢
    exact Nat.le_trans hshort hadds

theorem PcodeHeader.Holds.cell {rows : List Row} (h : ph.Holds own rows) {r : Row} (hr : r ∈ rows) :
    ph.ste r.addr = some r.entry :=
  h.stes.allocated (List.mem_map_of_mem (f := fun r => (r.addr, r.entry)) hr)

/-- An address of a key belongs to one hash. -/
theorem PcodeHeader.Holds.key_ne {pre post : List Row} {r s : Row}
    (h : ph.Holds own (pre ++ r :: post)) (hs : s ∈ pre ++ post) {c d : Addr × KeyEntry}
    (hc : c ∈ s.keys) (hd : d ∈ r.keys) : c.1 ≠ d.1 := by
  intro heq
  have hrow := h.each r (mem_middle.mpr (.inl rfl))
  have hother := h.each s (mem_middle.mpr (.inr hs))
  refine h.addr_ne s hs ?_
  rw [← hother.keysOwned c hc, ← hrow.keysOwned d hd, heq]

/-! ## Emptying a hash -/

/-- The row of a hash without its keys. -/
def Row.emptied (r : Row) : Row := ⟨r.addr, { r.entry with context := none, head := none }, []⟩

theorem Row.emptied_hasRow {r : Row} (hmagic : r.entry.magic = SE_MAGIC) : ph.HasRow own (Row.emptied r) where
  magic := hmagic
  keys := rfl
  keysMagic _ h := absurd h List.not_mem_nil
  keysNodup := List.nodup_nil
  keysOwned _ h := absurd h List.not_mem_nil
  parents _ h := absurd h List.not_mem_nil
  context _ h := by cases h
  keysShort := Nat.zero_le ph.adds

/-- **The keys of a hash are freed, and those of no other.** -/
theorem deleteHashContents_holds {pre post : List Row} {r : Row}
    (h : ph.Holds own (pre ++ r :: post)) : ∃ ph', deleteHashContents ph r.addr = .ok ph' ∧
      ph'.Holds own (pre ++ r.emptied :: post) := by
  have hmem : r ∈ pre ++ r :: post := mem_middle.mpr (.inl rfl)
  have hrow := h.each r hmem
  have hcell := h.cell hmem
  rw [deleteHashContents, hcell]
  simp only [deref_some, ok_bind]
  cases hcontext : r.entry.context with
  | none =>
    refine ⟨_, rfl, h.setRow rfl rfl rfl rfl (Nat.le_refl _) (Row.emptied_hasRow hrow.magic) ?_⟩
    intro s hs
    exact (h.each s (mem_middle.mpr (.inr hs))).frame (fun _ _ => ⟨rfl, rfl⟩)
      (fun _ _ => ⟨rfl, rfl⟩) (Nat.le_refl _)
  | some c =>
    obtain ⟨hallocated, howned⟩ := hrow.context c hcontext
    simp only [PcodeHeader.freeContext, if_pos hallocated]
    refine ⟨_, rfl, h.setRow rfl rfl rfl rfl (Nat.le_refl _) (Row.emptied_hasRow hrow.magic) ?_⟩
    intro s hs
    have hother := h.each s (mem_middle.mpr (.inr hs))
    have hne : s.entry.context ≠ some c := by
      intro heq
      exact h.addr_ne s hs (((hother.context c heq).2.symm).trans howned)
    refine hother.frame (fun k hk => ⟨?_, rfl⟩) (fun d hd => ⟨?_, rfl⟩) (Nat.le_refl _)
    · show (ph.ke k.1).filter _ = ph.ke k.1
      rw [hother.keys.allocated hk]
      refine Option.filter_eq_some_iff.mpr ⟨rfl, decide_eq_true ?_⟩
      rw [hother.parents k hk]
      exact hne
    · show update ph.context c false d = ph.context d
      exact update_of_ne (fun heq => hne (hd.trans (congrArg some heq))) _ _

theorem deleteHashContents_split {UtilHash : CString → UInt32} {pre post : List ParseHashSTE}
    {se : ParseHashSTE} {hashName : CString} (hpre : ∀ s ∈ pre, ¬ s.isNamed UtilHash hashName = true)
    (hse : se.isNamed UtilHash hashName = true) :
    Script.deleteHashContents UtilHash (pre ++ se :: post) hashName =
      pre ++ { se with kvs := [] } :: post := by
  induction pre with
  | nil => exact if_pos hse
  | cons s pre ih =>
    rw [List.cons_append, Script.deleteHashContents, if_neg (hpre s List.mem_cons_self),
      ih fun s' hs' => hpre s' (List.mem_cons_of_mem s hs')]
    rfl

theorem deleteHashContents_absent {UtilHash : CString → UInt32} {steHead : List ParseHashSTE}
    {hashName : CString} (h : ∀ s ∈ steHead, ¬ s.isNamed UtilHash hashName = true) :
    Script.deleteHashContents UtilHash steHead hashName = steHead := by
  induction steHead with
  | nil => rfl
  | cons s steHead ih =>
    rw [Script.deleteHashContents, if_neg (h s List.mem_cons_self),
      ih fun s' hs' => h s' (List.mem_cons_of_mem s hs')]

/-- The rows before the one that is found do not have the name. -/
theorem find?_named {rows : List Row} {hashName : CString} {r : Row}
    (h : rows.find? (Row.named o hashName) = some r) : ∃ pre post, rows = pre ++ r :: post ∧
      r.toSTE.isNamed o.UtilHash hashName = true ∧
      ∀ s ∈ table pre, ¬ s.isNamed o.UtilHash hashName = true := by
  obtain ⟨hr, pre, post, hrows, hpre⟩ := List.find?_eq_some_iff_append.mp h
  refine ⟨pre, post, hrows, hr, fun s hs => ?_⟩
  obtain ⟨r', hr', rfl⟩ := List.mem_map.mp hs
  have hnot := hpre r' hr'
  rw [Row.named] at hnot
  simpa using hnot

theorem find?_unnamed {rows : List Row} {hashName : CString}
    (h : rows.find? (Row.named o hashName) = none) :
    ∀ s ∈ table rows, ¬ s.isNamed o.UtilHash hashName = true := by
  intro s hs
  obtain ⟨r, hr, rfl⟩ := List.mem_map.mp hs
  exact List.find?_eq_none.mp h r hr

/-- **A hash is emptied in memory as in the table.** -/
theorem emptyHash_refines {rows : List Row} (h : ph.Holds own rows) (hashName : CString) :
    ∃ ph' rows', emptyHash o ph hashName = .ok ph' ∧ ph'.Holds own rows' ∧
      table rows' = Script.deleteHashContents o.UtilHash (table rows) hashName := by
  rw [emptyHash, findHash_eq h]
  cases hfound : rows.find? (Row.named o hashName) with
  | none => exact ⟨ph, rows, rfl, h, (deleteHashContents_absent (find?_unnamed hfound)).symm⟩
  | some r =>
    obtain ⟨pre, post, rfl, hr, hpre⟩ := find?_named hfound
    obtain ⟨ph', hdelete, h'⟩ := deleteHashContents_holds h
    refine ⟨ph', _, hdelete, h', ?_⟩
    rw [table_middle, table_middle, deleteHashContents_split hpre hr]
    rfl

/-! ## A new key -/

/-- The key a walk is at when none before it is the one that is added. -/
def KeyEntry.keyed (new ke : KeyEntry) : Bool := new.hash = ke.hash ∧ ke.key = new.key

/-- The walk comes to the key that is replaced. -/
theorem putFrom_found (h : Addr) {keNew : Addr} {new : KeyEntry} (hnew : ph.ke keNew = some new)
    (pre : List (Addr × KeyEntry)) {post : List (Addr × KeyEntry)} {c : Addr × KeyEntry} {start : Option Addr}
    (hchain : keyLinks.Chain ph.ke start (pre ++ c :: post))
    (hmagic : ∀ d ∈ pre ++ c :: post, d.2.magic = KE_MAGIC)
    (hpre : ∀ d ∈ pre, ¬ new.keyed d.2 = true) (hc : new.keyed c.2 = true) {turns : Nat}
    (hturns : (pre ++ c :: post).length ≤ turns) (kePrev : Option Addr) :
    putFrom ph h keNew new.key turns kePrev start =
      replaceKey ph h keNew ((pre.map Prod.fst).getLast?.or kePrev) c.1 c.2 new := by
  induction pre generalizing start turns kePrev with
  | nil =>
    obtain ⟨hstart, hcell, -⟩ := hchain
    obtain ⟨turns, rfl⟩ : ∃ n, turns = n + 1 := ⟨turns - 1, by
      have hlen : ([] ++ c :: post).length = post.length + 1 := rfl
      omega⟩
    have hm := hmagic c List.mem_cons_self
    rw [hstart, putFrom, hcell, hnew]
    simp only [deref_some, ok_bind, hm, decide_true, ASSERT_FAIL_true]
    exact if_pos (of_decide_eq_true hc)
  | cons d pre ih =>
    obtain ⟨hstart, hcell, hrest⟩ := hchain
    obtain ⟨turns, rfl⟩ : ∃ n, turns = n + 1 := ⟨turns - 1, by
      have hlen : (d :: pre ++ c :: post).length = (pre ++ c :: post).length + 1 := rfl
      omega⟩
    have hm := hmagic d List.mem_cons_self
    have hd : ¬ (new.hash = d.2.hash ∧ d.2.key = new.key) :=
      fun heq => hpre d List.mem_cons_self (decide_eq_true heq)
    have hwalk := ih hrest (fun e he => hmagic e (List.mem_cons_of_mem d he))
      (fun e he => hpre e (List.mem_cons_of_mem d he)) (Nat.le_of_succ_le_succ hturns) (some d.1)
    rw [Option.or_some] at hwalk
    rw [hstart, putFrom, hcell, hnew]
    simp only [deref_some, ok_bind, hm, decide_true, ASSERT_FAIL_true, if_neg hd]
    rw [List.map_cons, List.getLast?_cons, Option.some_or, ← hwalk]
    cases hnext : d.2.next with
    | none =>
      have hempty := hrest.start_eq_none.mp hnext
      exact absurd hempty (List.append_ne_nil_of_right_ne_nil pre (List.cons_ne_nil c post))
    | some next => rw [show keyLinks.next d.2 = some next from hnext]

/-- The walk comes to the end of the key list. -/
theorem putFrom_absent (h : Addr) {keNew : Addr} {new : KeyEntry} (hnew : ph.ke keNew = some new)
    {pre : List (Addr × KeyEntry)} {c : Addr × KeyEntry} {start : Option Addr}
    (hchain : keyLinks.Chain ph.ke start (pre ++ [c]))
    (hmagic : ∀ d ∈ pre ++ [c], d.2.magic = KE_MAGIC)
    (hnone : ∀ d ∈ pre ++ [c], ¬ new.keyed d.2 = true) {turns : Nat}
    (hturns : (pre ++ [c]).length ≤ turns) (kePrev : Option Addr) :
    putFrom ph h keNew new.key turns kePrev start =
      .ok (ph.storeKey c.1 { c.2 with next := some keNew }) := by
  induction pre generalizing start turns kePrev with
  | nil =>
    obtain ⟨hstart, hcell, hend⟩ := hchain
    obtain ⟨turns, rfl⟩ : ∃ n, turns = n + 1 := ⟨turns - 1, by
      have hlen : ([] ++ [c]).length = 1 := rfl
      omega⟩
    have hm := hmagic c List.mem_cons_self
    have hc : ¬ (new.hash = c.2.hash ∧ c.2.key = new.key) :=
      fun heq => hnone c List.mem_cons_self (decide_eq_true heq)
    have hnext : c.2.next = none := hend
    rw [hstart, putFrom, hcell, hnew]
    simp only [deref_some, ok_bind, hm, decide_true, ASSERT_FAIL_true, if_neg hc, hnext]
    rfl
  | cons d pre ih =>
    obtain ⟨hstart, hcell, hrest⟩ := hchain
    obtain ⟨turns, rfl⟩ : ∃ n, turns = n + 1 := ⟨turns - 1, by
      have hlen : (d :: pre ++ [c]).length = (pre ++ [c]).length + 1 := rfl
      omega⟩
    have hm := hmagic d List.mem_cons_self
    have hd : ¬ (new.hash = d.2.hash ∧ d.2.key = new.key) :=
      fun heq => hnone d List.mem_cons_self (decide_eq_true heq)
    have hwalk := ih hrest (fun e he => hmagic e (List.mem_cons_of_mem d he))
      (fun e he => hnone e (List.mem_cons_of_mem d he)) (Nat.le_of_succ_le_succ hturns) (some d.1)
    rw [hstart, putFrom, hcell, hnew]
    simp only [deref_some, ok_bind, hm, decide_true, ASSERT_FAIL_true, if_neg hd]
    rw [← hwalk]
    cases hnext : d.2.next with
    | none =>
      have hempty := hrest.start_eq_none.mp hnext
      exact absurd hempty (List.append_ne_nil_of_right_ne_nil pre (List.cons_ne_nil c []))
    | some next => rw [show keyLinks.next d.2 = some next from hnext]

/-- The new key and its context. -/
def newEntry (o : Outside) (key value : CString) (parent : Option Addr) : KeyEntry :=
  ⟨KE_MAGIC, o.UtilHash key, key, value, none, parent⟩

theorem newKey_eq {rows : List Row} (h : ph.Holds own rows) {r : Row} (hr : r ∈ rows) (keNew : Addr)
    (key value : CString) : newKey o ph r.addr keNew key value =
      .ok (ph.storeKey keNew (newEntry o key value r.entry.context)) := by
  rw [newKey, h.cell hr]
  simp only [deref_some, ok_bind]
  cases hcontext : r.entry.context with
  | none => rfl
  | some c =>
    simp only [if_pos ((h.each r hr).context c hcontext).1]
    rfl

/-- A new owner for the address of the new key. -/
def Owners.withKey (own : Owners) (keNew h : Addr) : Owners :=
  { own with ofKey := update own.ofKey keNew h }

/-- The other rows stay when keys of one row are written. -/
theorem PcodeHeader.Holds.others {pre post : List Row} {r : Row}
    (h : ph.Holds own (pre ++ r :: post)) {keNew : Addr} (hfresh : ph.ke keNew = none)
    (hke : ∀ a, a ≠ keNew → (∀ d ∈ r.keys, a ≠ d.1) → ph'.ke a = ph.ke a)
    (hcontext : ph'.context = ph.context) (hadds : ph'.adds = ph.adds) :
    ∀ s ∈ pre ++ post, ph'.HasRow (own.withKey keNew r.addr) s := by
  intro s hs
  have hother := h.each s (mem_middle.mpr (.inr hs))
  refine hother.frame (fun c hc => ?_) (fun c _ => ?_) (Nat.le_of_eq hadds.symm)
  · have hne := hother.keys.ne_of_fresh hfresh c hc
    exact ⟨hke c.1 hne fun d hd => h.key_ne hs hc hd, update_of_ne hne _ _⟩
  · exact ⟨congrFun hcontext c, rfl⟩

/-- A row with the new key in its list. -/
theorem PcodeHeader.HasRow.rekeyed {r : Row} (hrow : ph.HasRow own r) {keNew : Addr}
    (hfresh : ph.ke keNew = none) (head : Option Addr) {keys : List (Addr × KeyEntry)}
    (hchain : keyLinks.Chain ph'.ke head keys)
    (hkeys : ∀ c ∈ keys, (c.1 = keNew ∧ c.2.magic = KE_MAGIC ∧ c.2.parent = r.entry.context) ∨
      ∃ d ∈ r.keys, c.1 = d.1 ∧ c.2.magic = d.2.magic ∧ c.2.parent = d.2.parent)
    (hnodup : (keys.map Prod.fst).Nodup) (hshort : keys.length ≤ ph.adds)
    (hcontext : ph'.context = ph.context) (hadds : ph'.adds = ph.adds) :
    ph'.HasRow (own.withKey keNew r.addr) ⟨r.addr, { r.entry with head := head }, keys⟩ where
  magic := hrow.magic
  keys := hchain
  keysMagic c hc := by
    rcases hkeys c hc with ⟨-, hm, -⟩ | ⟨d, hd, -, hm, -⟩
    · exact hm
    · exact hm.trans (hrow.keysMagic d hd)
  keysNodup := hnodup
  keysOwned c hc := by
    rcases hkeys c hc with ⟨ha, -, -⟩ | ⟨d, hd, ha, -, -⟩
    · rw [ha]
      exact update_self ..
    · rw [ha]
      refine (update_of_ne (hrow.keys.ne_of_fresh hfresh d hd) _ _).trans ?_
      exact hrow.keysOwned d hd
  parents c hc := by
    rcases hkeys c hc with ⟨-, -, hp⟩ | ⟨d, hd, -, -, hp⟩
    · exact hp
    · exact hp.trans (hrow.parents d hd)
  context c hc := by
    rw [hcontext]
    exact hrow.context c hc
  keysShort := by
    rw [hadds]
    exact hshort

theorem putKey_split {new : KeyEntry} (pre post : List (Addr × KeyEntry)) {c : Addr × KeyEntry}
    (hpre : ∀ d ∈ pre, ¬ new.keyed d.2 = true) (hc : new.keyed c.2 = true) :
    putKey new.toKV ((pre ++ c :: post).map fun c => c.2.toKV) =
      (pre.map fun c => c.2.toKV) ++ new.toKV :: post.map fun c => c.2.toKV := by
  induction pre with
  | nil => exact if_pos (of_decide_eq_true hc)
  | cons d pre ih =>
    have hd : ¬ (new.hash = d.2.hash ∧ d.2.key = new.key) :=
      fun heq => hpre d List.mem_cons_self (decide_eq_true heq)
    refine (if_neg hd).trans ?_
    exact congrArg (d.2.toKV :: ·) (ih fun e he => hpre e (List.mem_cons_of_mem d he))

theorem putKey_behind {new : KeyEntry} {keys : List (Addr × KeyEntry)}
    (hnone : ∀ d ∈ keys, ¬ new.keyed d.2 = true) :
    putKey new.toKV (keys.map fun c => c.2.toKV) =
      (keys.map fun c => c.2.toKV) ++ [new.toKV] := by
  induction keys with
  | nil => rfl
  | cons d keys ih =>
    have hd : ¬ (new.hash = d.2.hash ∧ d.2.key = new.key) :=
      fun heq => hnone d List.mem_cons_self (decide_eq_true heq)
    refine (if_neg hd).trans ?_
    exact congrArg (d.2.toKV :: ·) (ih fun e he => hnone e (List.mem_cons_of_mem d he))

/-! ## The new key in its list -/

section

variable {pre post : List Row} {r : Row} {keNew : Addr}

theorem addKey_eq (h : ph.Holds own (pre ++ r :: post)) (keNew : Addr) (key value : CString) :
    addKey o ph r.addr keNew key value =
      match r.entry.head with
      | none => .ok ((ph.storeKey keNew (newEntry o key value r.entry.context)).storeHash r.addr
          { r.entry with head := some keNew })
      | some ke => putFrom (ph.storeKey keNew (newEntry o key value r.entry.context)) r.addr keNew key
          ph.adds none (some ke) := by
  have hr : r ∈ pre ++ r :: post := mem_middle.mpr (.inl rfl)
  have hcell : (ph.storeKey keNew (newEntry o key value r.entry.context)).ste r.addr =
      some r.entry := h.cell hr
  rw [addKey, newKey_eq h hr, ok_bind, hcell]
  rfl

/-- The chain of the keys behind the write of the new one. -/
theorem PcodeHeader.HasRow.keys_storeKey (hrow : ph.HasRow own r) (hfresh : ph.ke keNew = none)
    (new : KeyEntry) : keyLinks.Chain (ph.storeKey keNew new).ke r.entry.head r.keys :=
  hrow.keys.congr fun c hc => update_of_ne (hrow.keys.ne_of_fresh hfresh c hc) _ _

theorem PcodeHeader.Holds.ste_unchanged (h : ph.Holds own (pre ++ r :: post)) :
    ph.ste = update ph.ste r.addr (some r.entry) := by
  rw [← h.cell (mem_middle.mpr (.inl rfl))]
  exact (Function.update_eq_self r.addr ph.ste).symm

/-- A new key in a hash has been put where it belongs. -/
def IsAdded (o : Outside) (ph : PcodeHeader) (pre post : List Row) (r : Row) (keNew : Addr)
    (key value : CString) : Prop :=
  ∃ ph' own' r', addKey o ph r.addr keNew key value = .ok ph' ∧
    ph'.Holds own' (pre ++ r' :: post) ∧
    r'.toSTE = { r.toSTE with kvs := putKey (keyEntry o.UtilHash key value) r.toSTE.kvs }

/-- The first key of a hash. -/
theorem isAdded_first (h : ph.Holds own (pre ++ r :: post)) (hfresh : ph.ke keNew = none)
    (hadds : 1 ≤ ph.adds) (hkeys : r.keys = []) (key value : CString) :
    IsAdded o ph pre post r keNew key value := by
  have hrow := h.each r (mem_middle.mpr (.inl rfl))
  have hhead : r.entry.head = none := hrow.keys.start_eq_none.mpr hkeys
  have hadd := addKey_eq (o := o) h keNew key value
  rw [hhead] at hadd
  refine ⟨_, own.withKey keNew r.addr,
    ⟨r.addr, { r.entry with head := some keNew },
      [(keNew, newEntry o key value r.entry.context)]⟩, hadd, ?_, ?_⟩
  · refine h.setRow rfl rfl rfl rfl (Nat.le_refl _) ?_ ?_
    · refine hrow.rekeyed hfresh _ ⟨rfl, update_self .., rfl⟩ ?_ (List.nodup_singleton _) hadds rfl rfl
      intro c hc
      rw [List.mem_singleton] at hc
      subst hc
      exact .inl ⟨rfl, rfl, rfl⟩
    · exact h.others hfresh (fun a ha _ => update_of_ne ha _ _) rfl rfl
  · rw [Row.toSTE, Row.toSTE, hkeys]
    rfl

/-- A key behind the last one. -/
theorem isAdded_behind (h : ph.Holds own (pre ++ r :: post)) (hfresh : ph.ke keNew = none)
    {key value : CString} {init : List (Addr × KeyEntry)} {t : Addr × KeyEntry}
    (hkeys : r.keys = init ++ [t]) (hadds : r.keys.length + 1 ≤ ph.adds)
    (hnone : ∀ d ∈ r.keys, ¬ (newEntry o key value r.entry.context).keyed d.2 = true) :
    IsAdded o ph pre post r keNew key value := by
  have hrow := h.each r (mem_middle.mpr (.inl rfl))
  obtain ⟨head, hhead⟩ : ∃ head, r.entry.head = some head := by
    refine Option.ne_none_iff_exists'.mp fun hnil => ?_
    have hempty := hrow.keys.start_eq_none.mp hnil
    rw [hkeys] at hempty
    exact List.append_ne_nil_of_right_ne_nil init (List.cons_ne_nil t []) hempty
  have hchain := hrow.keys_storeKey hfresh (newEntry o key value r.entry.context)
  have hadd := addKey_eq (o := o) h keNew key value
  have hold := hrow.keys
  have hnodup := hrow.keysNodup
  have hmagic := hrow.keysMagic
  have hnew := hold.fresh_not_mem hfresh
  have hnone' := hnone
  rw [hhead] at hadd hchain
  rw [hkeys] at hchain hold hnodup hmagic hnone' hadds hnew
  have hput := putFrom_absent r.addr
    (update_self keNew (some (newEntry o key value r.entry.context)) ph.ke) hchain hmagic hnone' (Nat.le_of_succ_le hadds) none
  refine ⟨_, own.withKey keNew r.addr,
    ⟨r.addr, r.entry, init ++ [(t.1, { t.2 with next := some keNew }),
      (keNew, newEntry o key value r.entry.context)]⟩, hadd.trans hput, ?_, ?_⟩
  · refine h.setRow rfl rfl rfl h.ste_unchanged (Nat.le_refl _) ?_ ?_
    · refine hrow.rekeyed hfresh r.entry.head
        (hold.push hnodup hfresh (n := newEntry o key value r.entry.context) rfl) ?_ ?_ ?_ rfl rfl
      · intro c hc
        rcases List.mem_append.mp hc with hc | hc
        · exact .inr ⟨c, hkeys ▸ List.mem_append_left _ hc, rfl, rfl, rfl⟩
        · rcases List.mem_cons.mp hc with rfl | hc
          · exact .inr ⟨t, hkeys ▸ List.mem_append_right _ List.mem_cons_self, rfl, rfl, rfl⟩
          · rw [List.mem_singleton] at hc
            subst hc
            exact .inl ⟨rfl, rfl, rfl⟩
      · have hall := hnodup.concat hnew
        rw [List.concat_eq_append, List.map_append, List.append_assoc] at hall
        rw [List.map_append]
        exact hall
      · rw [List.length_append] at hadds ⊢
        exact hadds
    · refine h.others hfresh (fun a ha hd => ?_) rfl rfl
      have hat : a ≠ t.1 := hd t (hkeys ▸ List.mem_append_right init List.mem_cons_self)
      exact (update_of_ne hat _ _).trans (update_of_ne ha _ _)
  · have hlist := putKey_behind hnone
    rw [hkeys, List.map_append, List.append_assoc] at hlist
    rw [Row.toSTE, Row.toSTE, hkeys, List.map_append, List.map_append]
    exact congrArg (ParseHashSTE.mk r.entry.hash r.entry.name) hlist.symm

theorem storeKey_storeKey (ph : PcodeHeader) (a : Addr) (ke ke' : KeyEntry) :
    (ph.storeKey a ke).storeKey a ke' = ph.storeKey a ke' := by
  rw [PcodeHeader.storeKey, PcodeHeader.storeKey, PcodeHeader.storeKey, Function.update_idem]

theorem replaceKey_head {h : Addr} {se : HashEntry} (hse : ph.ste h = some se) (a : Addr)
    (ke new : KeyEntry) : replaceKey (ph.storeKey keNew new) h keNew none a ke new =
      .ok (((ph.storeKey keNew { new with next := ke.next }).storeHash h
        { se with head := some keNew }).freeKey a) := by
  have hcell : (ph.storeKey keNew { new with next := ke.next }).ste h = some se := hse
  rw [replaceKey, storeKey_storeKey]
  simp only [link, hcell, deref_some, ok_bind]
  rfl

theorem replaceKey_behind {h p : Addr} {before : KeyEntry} (hp : ph.ke p = some before)
    (hne : p ≠ keNew) (a : Addr) (ke new : KeyEntry) :
    replaceKey (ph.storeKey keNew new) h keNew (some p) a ke new =
      .ok (((ph.storeKey keNew { new with next := ke.next }).storeKey p
        { before with next := some keNew }).freeKey a) := by
  have hcell : (ph.storeKey keNew { new with next := ke.next }).ke p = some before :=
    (update_of_ne hne _ _).trans hp
  rw [replaceKey, storeKey_storeKey]
  simp only [link, hcell, deref_some, ok_bind]
  rfl

theorem nodup_replace {α : Type} (pre : List α) {post : List α} {a b : α} (h : (pre ++ a :: post).Nodup)
    (hb : b ∉ pre ++ a :: post) : (pre ++ b :: post).Nodup := by
  rw [List.nodup_middle, List.nodup_cons] at h ⊢
  exact ⟨fun hmem => hb (mem_middle.mpr (.inr hmem)), h.2⟩

/-- A key in the place of the first one. -/
theorem isAdded_inFront (h : ph.Holds own (pre ++ r :: post)) (hfresh : ph.ke keNew = none)
    {key value : CString} {c : Addr × KeyEntry} {behind : List (Addr × KeyEntry)}
    (hkeys : r.keys = c :: behind)
    (hc : (newEntry o key value r.entry.context).keyed c.2 = true) :
    IsAdded o ph pre post r keNew key value := by
  have hr : r ∈ pre ++ r :: post := mem_middle.mpr (.inl rfl)
  have hrow := h.each r hr
  have hshort := hrow.keysShort
  have hchain := hrow.keys_storeKey hfresh (newEntry o key value r.entry.context)
  have hadd := addKey_eq (o := o) h keNew key value
  have hold := hrow.keys
  have hnodup := hrow.keysNodup
  have hmagic := hrow.keysMagic
  have hnew := hold.fresh_not_mem hfresh
  rw [hkeys] at hchain hold hnodup hmagic hshort hnew
  have hput := putFrom_found r.addr
    (update_self keNew (some (newEntry o key value r.entry.context)) ph.ke) [] hchain hmagic
    (fun d hd => absurd hd List.not_mem_nil) hc hshort none
  rw [hchain.1] at hput hadd
  have hplaced : keyLinks.Chain (update (update ph.ke keNew
      (some { newEntry o key value r.entry.context with next := c.2.next })) c.1 none) (some keNew)
      ((keNew, { newEntry o key value r.entry.context with next := c.2.next }) :: behind) :=
    hold.replaceHead hnodup hfresh rfl
  refine ⟨_, own.withKey keNew r.addr,
    ⟨r.addr, { r.entry with head := some keNew },
      (keNew, { newEntry o key value r.entry.context with next := c.2.next }) :: behind⟩,
    (hadd.trans hput).trans (replaceKey_head (h.cell hr) c.1 c.2 _), ?_, ?_⟩
  · refine h.setRow rfl rfl rfl rfl (Nat.le_refl _) ?_ ?_
    · refine hrow.rekeyed hfresh _ hplaced ?_ ?_ hshort rfl rfl
      · intro d hd
        rcases List.mem_cons.mp hd with rfl | hd
        · exact .inl ⟨rfl, rfl, rfl⟩
        · exact .inr ⟨d, hkeys ▸ List.mem_cons_of_mem c hd, rfl, rfl, rfl⟩
      · exact nodup_replace [] hnodup hnew
    · refine h.others hfresh (fun a ha hd => ?_) rfl rfl
      have hac : a ≠ c.1 := hd c (hkeys ▸ List.mem_cons_self)
      exact (update_of_ne hac _ _).trans (update_of_ne ha _ _)
  · have hlist := putKey_split [] behind (fun d hd => absurd hd List.not_mem_nil) hc
    rw [Row.toSTE, Row.toSTE, hkeys]
    exact congrArg (ParseHashSTE.mk r.entry.hash r.entry.name) hlist.symm

/-- A key in the place of one behind another. -/
theorem isAdded_between (h : ph.Holds own (pre ++ r :: post)) (hfresh : ph.ke keNew = none)
    {key value : CString} {init behind : List (Addr × KeyEntry)} {p c : Addr × KeyEntry}
    (hkeys : r.keys = init ++ p :: c :: behind)
    (hbefore : ∀ d ∈ init ++ [p], ¬ (newEntry o key value r.entry.context).keyed d.2 = true)
    (hc : (newEntry o key value r.entry.context).keyed c.2 = true) :
    IsAdded o ph pre post r keNew key value := by
  have hr : r ∈ pre ++ r :: post := mem_middle.mpr (.inl rfl)
  have hrow := h.each r hr
  have hshort := hrow.keysShort
  have hchain := hrow.keys_storeKey hfresh (newEntry o key value r.entry.context)
  have hadd := addKey_eq (o := o) h keNew key value
  have hold := hrow.keys
  have hnodup := hrow.keysNodup
  have hmagic := hrow.keysMagic
  have hnew := hold.fresh_not_mem hfresh
  have hlater : init ++ p :: c :: behind = (init ++ [p]) ++ c :: behind := by
    rw [List.append_assoc]
    rfl
  obtain ⟨head, hhead⟩ : ∃ head, r.entry.head = some head := by
    refine Option.ne_none_iff_exists'.mp fun hnil => ?_
    have hempty := hrow.keys.start_eq_none.mp hnil
    rw [hkeys] at hempty
    exact List.append_ne_nil_of_right_ne_nil init (List.cons_ne_nil p _) hempty
  rw [hkeys] at hchain hold hnodup hmagic hshort hnew
  have hp : p ∈ init ++ p :: c :: behind := List.mem_append_right init List.mem_cons_self
  have hput := putFrom_found r.addr
    (update_self keNew (some (newEntry o key value r.entry.context)) ph.ke) (init ++ [p])
    (hlater ▸ hchain)
    (hlater ▸ hmagic) hbefore hc (hlater ▸ hshort) none
  rw [List.map_append, List.map_singleton, List.getLast?_concat, Option.some_or, hhead] at hput
  rw [hhead] at hadd
  have hplaced : keyLinks.Chain (update (update (update ph.ke keNew
      (some { newEntry o key value r.entry.context with next := c.2.next })) p.1
        (some { p.2 with next := some keNew })) c.1 none) r.entry.head
      (init ++ (p.1, { p.2 with next := some keNew }) ::
        (keNew, { newEntry o key value r.entry.context with next := c.2.next }) :: behind) :=
    hold.replace hnodup hfresh rfl
  refine ⟨_, own.withKey keNew r.addr,
    ⟨r.addr, r.entry, init ++ (p.1, { p.2 with next := some keNew }) ::
      (keNew, { newEntry o key value r.entry.context with next := c.2.next }) :: behind⟩,
    (hadd.trans hput).trans (replaceKey_behind (hold.allocated hp) (hold.ne_of_fresh hfresh p hp) c.1 c.2 _), ?_, ?_⟩
  · refine h.setRow rfl rfl rfl h.ste_unchanged (Nat.le_refl _) ?_ ?_
    · refine hrow.rekeyed hfresh r.entry.head hplaced ?_ ?_ ?_ rfl rfl
      · intro d hd
        rcases List.mem_append.mp hd with hd | hd
        · exact .inr ⟨d, hkeys ▸ List.mem_append_left _ hd, rfl, rfl, rfl⟩
        · rcases List.mem_cons.mp hd with rfl | hd
          · exact .inr ⟨p, hkeys ▸ hp, rfl, rfl, rfl⟩
          · rcases List.mem_cons.mp hd with rfl | hd
            · exact .inl ⟨rfl, rfl, rfl⟩
            · refine .inr ⟨d, hkeys ▸ List.mem_append_right init ?_, rfl, rfl, rfl⟩
              exact List.mem_cons_of_mem p (List.mem_cons_of_mem c hd)
      · rw [hlater] at hnodup hnew
        rw [List.map_append, List.map_cons] at hnodup hnew
        have hall := nodup_replace _ hnodup hnew
        rw [List.map_append, List.append_assoc] at hall
        rw [List.map_append]
        exact hall
      · rw [List.length_append] at hshort ⊢
        exact hshort
    · refine h.others hfresh (fun a ha hd => ?_) rfl rfl
      have hac : a ≠ c.1 := hd c (hkeys ▸ List.mem_append_right init
        (List.mem_cons_of_mem p List.mem_cons_self))
      have hap : a ≠ p.1 := hd p (hkeys ▸ hp)
      exact (update_of_ne hac _ _).trans ((update_of_ne hap _ _).trans (update_of_ne ha _ _))
  · have hlist := putKey_split (init ++ [p]) behind hbefore hc
    rw [← hlater, List.map_append, List.map_append, List.append_assoc] at hlist
    rw [Row.toSTE, Row.toSTE, hkeys, List.map_append, List.map_append]
    exact congrArg (ParseHashSTE.mk r.entry.hash r.entry.name) hlist.symm

/-- **A new key is put into the list of its hash as in the table**: behind
the others, or in the place of the one with the same key. -/
theorem addKey_refines (h : ph.Holds own (pre ++ r :: post)) (hfresh : ph.ke keNew = none)
    (hadds : r.keys.length + 1 ≤ ph.adds) (key value : CString) :
    IsAdded o ph pre post r keNew key value := by
  cases hfind : r.keys.find? fun d => (newEntry o key value r.entry.context).keyed d.2 with
  | none =>
    have hnone := List.find?_eq_none.mp hfind
    rcases List.eq_nil_or_concat r.keys with hkeys | ⟨init, t, hkeys⟩
    · exact isAdded_first h hfresh (Nat.le_trans (Nat.le_add_left 1 _) hadds) hkeys key value
    · rw [List.concat_eq_append] at hkeys
      exact isAdded_behind h hfresh hkeys hadds hnone
  | some c =>
    obtain ⟨hc, before, behind, hkeys, hbefore⟩ := List.find?_eq_some_iff_append.mp hfind
    have hnot : ∀ d ∈ before, ¬ (newEntry o key value r.entry.context).keyed d.2 = true := by
      intro d hd
      simpa using hbefore d hd
    rcases List.eq_nil_or_concat before with rfl | ⟨init, p, rfl⟩
    · exact isAdded_inFront h hfresh hkeys hc
    · rw [List.concat_eq_append] at hkeys hnot
      rw [List.append_assoc] at hkeys
      exact isAdded_between h hfresh hkeys hnot hc

end

/-! ## The entry of a hash -/

theorem hashAddKeyValue_split {UtilHash : CString → UInt32} {pre post : List ParseHashSTE}
    {se : ParseHashSTE} {hashName : CString} (hpre : ∀ s ∈ pre, ¬ s.isNamed UtilHash hashName = true)
    (hse : se.isNamed UtilHash hashName = true) (key value : CString) :
    hashAddKeyValue UtilHash (pre ++ se :: post) hashName key value =
      pre ++ { se with kvs := putKey (keyEntry UtilHash key value) se.kvs } :: post := by
  induction pre with
  | nil => exact if_pos hse
  | cons s pre ih =>
    rw [List.cons_append, hashAddKeyValue, if_neg (hpre s List.mem_cons_self),
      ih fun s' hs' => hpre s' (List.mem_cons_of_mem s hs')]
    rfl

theorem hashAddKeyValue_absent {UtilHash : CString → UInt32} {steHead : List ParseHashSTE}
    {hashName : CString} (h : ∀ s ∈ steHead, ¬ s.isNamed UtilHash hashName = true)
    (key value : CString) : hashAddKeyValue UtilHash steHead hashName key value =
      steHead ++ [{ Script.hashAppend UtilHash hashName with
        kvs := putKey (keyEntry UtilHash key value) [] }] := by
  induction steHead with
  | nil => rfl
  | cons s steHead ih =>
    rw [hashAddKeyValue, if_neg (h s List.mem_cons_self),
      ih fun s' hs' => h s' (List.mem_cons_of_mem s hs')]
    rfl

/-- An entry that was created for the name gets the key. -/
theorem hashAddKeyValue_created {UtilHash : CString → UInt32} {steHead : List ParseHashSTE}
    {hashName : CString} (h : ∀ s ∈ steHead, ¬ s.isNamed UtilHash hashName = true)
    (key value : CString) :
    hashAddKeyValue UtilHash (steHead ++ [Script.hashAppend UtilHash hashName]) hashName key value =
      hashAddKeyValue UtilHash steHead hashName key value := by
  have hnamed : (Script.hashAppend UtilHash hashName).isNamed UtilHash hashName = true :=
    decide_eq_true ⟨rfl, rfl⟩
  rw [hashAddKeyValue_absent h, hashAddKeyValue_split h hnamed]
  rfl

/-- Talloc gives memory that is not in use. -/
structure PcodeHeader.Allocates (ph : PcodeHeader) (mem : Allocation) : Prop where
  hNew : ph.ste mem.hNew = none
  context : ph.context mem.context = false
  keNew : ph.ke mem.keNew = none

/-- The row of a hash that has been created. -/
def newRow (o : Outside) (mem : Allocation) (hashName : CString) : Row :=
  ⟨mem.hNew, ⟨SE_MAGIC, o.UtilHash hashName, hashName, some mem.context, none, none⟩, []⟩

/-- The owner of the context of a new hash. -/
def Owners.withContext (own : Owners) (mem : Allocation) : Owners :=
  { own with ofContext := update own.ofContext mem.context mem.hNew }

theorem newRow_hasRow (own : Owners) (mem : Allocation) (hashName : CString)
    (hcontext : ph.context mem.context = true) :
    ph.HasRow (own.withContext mem) (newRow o mem hashName) where
  magic := rfl
  keys := rfl
  keysMagic _ h := absurd h List.not_mem_nil
  keysNodup := List.nodup_nil
  keysOwned _ h := absurd h List.not_mem_nil
  parents _ h := absurd h List.not_mem_nil
  context c hc := by
    cases hc
    exact ⟨hcontext, update_self ..⟩
  keysShort := Nat.zero_le ph.adds

/-- A row stays when a hash is created. -/
theorem PcodeHeader.HasRow.withContext {mem : Allocation} {s : Row} (h : ph.HasRow own s)
    (hfresh : ph.context mem.context = false) (hke : ph'.ke = ph.ke)
    (hcontext : ph'.context = update ph.context mem.context true) (hadds : ph'.adds = ph.adds) :
    ph'.HasRow (own.withContext mem) s := by
  refine h.frame (fun c _ => ⟨congrFun hke c.1, rfl⟩) (fun c hc => ?_) (Nat.le_of_eq hadds.symm)
  have hne : c ≠ mem.context := by
    rintro rfl
    rw [(h.context _ hc).1] at hfresh
    cases hfresh
  rw [hcontext]
  exact ⟨update_of_ne hne _ _, update_of_ne hne _ _⟩

theorem PcodeHeader.HasRow.relinked {s : Row} (h : ph.HasRow own s) (next : Option Addr) :
    ph.HasRow own { s with entry := { s.entry with next := next } } :=
  ⟨h.magic, h.keys, h.keysMagic, h.keysNodup, h.keysOwned, h.parents, h.context, h.keysShort⟩

/-- A hash in a table that had none. -/
theorem findOrCreate_first (h : ph.Holds own []) (mem : Allocation) (hadds : 1 ≤ ph.adds)
    (hashName : CString) :
    ∃ ph', findOrCreate o ph mem hashName = .ok (ph', mem.hNew) ∧ ph'.ke = ph.ke ∧
      ph'.adds = ph.adds ∧ ph'.Holds (own.withContext mem) [newRow o mem hashName] := by
  have hhead : ph.steHead = none := h.stes
  have hcell : ∀ se, update ph.ste mem.hNew (some se) mem.hNew = some se := fun se => update_self ..
  unfold findOrCreate
  simp only [hhead, hashAppend, ok_bind, deref_some, newContext, PcodeHeader.storeHash, hcell]
  refine ⟨_, rfl, rfl, rfl, ⟨rfl, update_self .., rfl⟩, List.nodup_singleton _, ?_, hadds⟩
  intro r hr
  rw [List.mem_singleton] at hr
  subst hr
  exact newRow_hasRow own mem hashName (update_self ..)

/-- A hash behind the last one of the table. -/
theorem findOrCreate_behind {init : List Row} {t : Row} (h : ph.Holds own (init ++ [t]))
    {mem : Allocation} (hmem : ph.Allocates mem) (hadds : (init ++ [t]).length + 1 ≤ ph.adds)
    {hashName : CString} (hnone : (init ++ [t]).find? (Row.named o hashName) = none) :
    ∃ ph', findOrCreate o ph mem hashName = .ok (ph', mem.hNew) ∧ ph'.ke = ph.ke ∧
      ph'.adds = ph.adds ∧ ph'.Holds (own.withContext mem)
        (init ++ { t with entry := { t.entry with next := some mem.hNew } } ::
          [newRow o mem hashName]) := by
  have ht : t ∈ init ++ [t] := List.mem_append_right init List.mem_cons_self
  have hne : t.addr ≠ mem.hNew := by
    intro heq
    have hcell := h.cell ht
    rw [heq, hmem.hNew] at hcell
    cases hcell
  obtain ⟨head, hhead⟩ : ∃ head, ph.steHead = some head := by
    refine Option.ne_none_iff_exists'.mp fun hnil => ?_
    have hempty := h.stes.start_eq_none.mp hnil
    rw [List.map_eq_nil_iff] at hempty
    exact List.append_ne_nil_of_right_ne_nil init (List.cons_ne_nil t []) hempty
  have hfind := findHash_eq (o := o) h hashName
  rw [hnone, List.map_append, List.map_singleton, List.getLast?_concat] at hfind
  have hlast : ∀ se, update ph.ste mem.hNew (some se) t.addr = some t.entry :=
    fun se => (update_of_ne hne _ _).trans (h.cell ht)
  have hself : ∀ (f : Addr → Option HashEntry) se, update f t.addr (some se) t.addr = some se :=
    fun f se => update_self ..
  have hnew : ∀ se se', update (update ph.ste mem.hNew (some se)) t.addr (some se') mem.hNew =
      some se := fun se se' => (update_of_ne hne.symm _ _).trans (update_self ..)
  unfold findOrCreate
  simp only [hhead, hfind, ok_bind, deref_some, hashAppend, newContext, PcodeHeader.storeHash, hlast,
    pure_bind, hself, hnew]
  refine ⟨_, rfl, rfl, rfl, ?_⟩
  have hchain := h.stes
  have hnodup : (((init ++ [t]).map fun r => (r.addr, r.entry)).map Prod.fst).Nodup := by
    rw [List.map_map]
    exact h.nodup
  have hfresh := hchain.fresh_not_mem hmem.hNew
  constructor
  · rw [List.map_append, List.map_singleton] at hchain hnodup
    have hpush := hchain.push (n := (newRow o mem hashName).entry) hnodup hmem.hNew rfl
    simp only [Function.update_comm hne, Function.update_idem]
    rw [hhead] at hpush
    rw [List.map_append]
    exact hpush
  · have hall := h.nodup.concat (by rwa [List.map_map] at hfresh)
    rw [List.concat_eq_append, List.map_append, List.append_assoc] at hall
    rw [List.map_append]
    exact hall
  · intro s hs
    rcases List.mem_append.mp hs with hs | hs
    · have hrow := h.each s (List.mem_append_left _ hs)
      exact hrow.withContext hmem.context rfl rfl rfl
    · rcases List.mem_cons.mp hs with rfl | hs
      · exact ((h.each t ht).relinked _).withContext hmem.context rfl rfl rfl
      · rw [List.mem_singleton] at hs
        subst hs
        exact newRow_hasRow own mem hashName (update_self ..)
  · rw [List.length_append] at hadds ⊢
    exact hadds

/-- A hash that is in the table is found. -/
theorem findOrCreate_found {pre post : List Row} {r : Row} (h : ph.Holds own (pre ++ r :: post))
    (mem : Allocation) {hashName : CString}
    (hfound : (pre ++ r :: post).find? (Row.named o hashName) = some r) :
    findOrCreate o ph mem hashName = .ok (ph, r.addr) := by
  obtain ⟨head, hhead⟩ : ∃ head, ph.steHead = some head := by
    refine Option.ne_none_iff_exists'.mp fun hnil => ?_
    have hempty := h.stes.start_eq_none.mp hnil
    rw [List.map_eq_nil_iff] at hempty
    exact List.append_ne_nil_of_right_ne_nil pre (List.cons_ne_nil r post) hempty
  have hfind := findHash_eq (o := o) h hashName
  rw [hfound] at hfind
  unfold findOrCreate
  simp only [hhead, hfind, ok_bind, deref_some]
  rfl

/-- One more key may be added. -/
theorem PcodeHeader.Holds.moreAdds {rows : List Row} (h : ph.Holds own rows) :
    ({ ph with adds := ph.adds + 1 } : PcodeHeader).Holds own rows :=
  ⟨h.stes, h.nodup,
    fun r hr => (h.each r hr).frame (fun _ _ => ⟨rfl, rfl⟩) (fun _ _ => ⟨rfl, rfl⟩) (Nat.le_succ _),
    Nat.le_succ_of_le h.short⟩

/-- **A key is added in memory as in the table.** -/
theorem ParserHashAddKeyValue_refines {rows : List Row} (h : ph.Holds own rows) {mem : Allocation}
    (hmem : ph.Allocates mem) {hashName : CString} (hDB : ¬ (o.DB = true ∧ hashName = cstr "nvstate"))
    (key value : CString) : ∃ ph' own' rows',
      ParserHashAddKeyValue o ph mem hashName key value = .ok (.PASS, ph') ∧
      ph'.Holds own' rows' ∧
      table rows' = hashAddKeyValue o.UtilHash (table rows) hashName key value := by
  rw [ParserHashAddKeyValue, if_neg hDB]
  -- the row of the hash, and the table before it is written
  obtain ⟨ph₁, own₁, pre, r, post, hentry, hholds, hke, hshort, hnamed, hpre, htable⟩ :
      ∃ ph₁ own₁ pre r post,
        findOrCreate o { ph with adds := ph.adds + 1 } mem hashName = .ok (ph₁, r.addr) ∧
        ph₁.Holds own₁ (pre ++ r :: post) ∧ ph₁.ke = ph.ke ∧ r.keys.length + 1 ≤ ph₁.adds ∧
        r.toSTE.isNamed o.UtilHash hashName = true ∧
        (∀ s ∈ table pre, ¬ s.isNamed o.UtilHash hashName = true) ∧
        hashAddKeyValue o.UtilHash (table (pre ++ r :: post)) hashName key value =
          hashAddKeyValue o.UtilHash (table rows) hashName key value := by
    cases hfound : rows.find? (Row.named o hashName) with
    | some r =>
      obtain ⟨pre, post, rfl, hnamed, hpre⟩ := find?_named hfound
      have hrow := h.each r (mem_middle.mpr (.inl rfl))
      exact ⟨_, own, pre, r, post, findOrCreate_found h.moreAdds mem hfound, h.moreAdds, rfl,
        Nat.succ_le_succ hrow.keysShort, hnamed, hpre, rfl⟩
    | none =>
      have hunnamed := find?_unnamed hfound
      have hnew : (newRow o mem hashName).toSTE.isNamed o.UtilHash hashName = true :=
        decide_eq_true ⟨rfl, rfl⟩
      rcases List.eq_nil_or_concat rows with rfl | ⟨init, t, rfl⟩
      · obtain ⟨ph₁, hentry, hke, hadds, hholds⟩ :=
          findOrCreate_first h.moreAdds mem (Nat.le_add_left 1 ph.adds) hashName
        refine ⟨ph₁, _, [], newRow o mem hashName, [], hentry, hholds, hke, ?_, hnew,
          fun s hs => absurd hs List.not_mem_nil, ?_⟩
        · rw [hadds]
          exact Nat.le_add_left 1 ph.adds
        · exact hashAddKeyValue_created hunnamed key value
      · rw [List.concat_eq_append] at h hfound hunnamed ⊢
        obtain ⟨ph₁, hentry, hke, hadds, hholds⟩ := findOrCreate_behind h.moreAdds
          ⟨hmem.hNew, hmem.context, hmem.keNew⟩ (Nat.succ_le_succ h.short) hfound
        have hsame : table (init ++ [{ t with entry := { t.entry with next := some mem.hNew } }]) =
            table (init ++ [t]) := by
          rw [table_middle, table_middle]
          rfl
        rw [List.append_cons] at hholds
        refine ⟨ph₁, _, _, newRow o mem hashName, [], hentry, hholds, hke, ?_, hnew, ?_, ?_⟩
        · rw [hadds]
          exact Nat.le_add_left 1 ph.adds
        · rw [hsame]
          exact hunnamed
        · rw [table_middle, hsame]
          exact hashAddKeyValue_created hunnamed key value
  obtain ⟨ph', own', r', hadd, hholds', hr'⟩ :=
    addKey_refines (o := o) hholds (hke ▸ hmem.keNew) hshort key value
  refine ⟨ph', own', pre ++ r' :: post, ?_, hholds', ?_⟩
  · rw [hentry, ok_bind]
    simp only [hadd]
    rfl
  · rw [← htable, table_middle, table_middle, hashAddKeyValue_split hpre hnamed, hr']

end XplEvent.Script.Pointers
