import XplEvent.Store.History

/-!
# Where the rows come from

However SQLite answers, soundly or not, and whether or not a transaction is
left open: a call that writes a row puts that row into its table or none,
and takes no row from anywhere else. So a row that is in the database was
there at the beginning or is the row of a call that was made
(`Write.exec_within`).
-/

namespace XplEvent.Store

open Lib (Conn)

/-- Which rows may be in the tables. -/
structure Allowed where
  nvstate : NVState → Prop
  triglog : TrigLog → Prop
  hbeatlog : HeartbeatLog → Prop
  scripts : Script → Prop

/-- The tables have no other rows. -/
structure Tables.Within (a : Allowed) (d : Tables) : Prop where
  nvstate : ∀ r ∈ d.nvstate, a.nvstate r
  triglog : ∀ r ∈ d.triglog, a.triglog r
  hbeatlog : ∀ r ∈ d.hbeatlog, a.hbeatlog r
  scripts : ∀ r ∈ d.scripts, a.scripts r

/-- The row of a call may be there. -/
def Allowed.Permits (a : Allowed) : Write → Prop
  | .DBWriteNVState now key value => a.nvstate ⟨key, some value, now⟩
  | .DBUpdateTrigLog now source schema nvpairs => a.triglog ⟨source, schema, some nvpairs, now⟩
  | .DBUpdateHeartbeatLog now source => a.hbeatlog ⟨source, now⟩
  | .DBIRScript name script => a.scripts ⟨name, escapeQuotes script⟩

/-- More rows may be there. -/
structure Allowed.Within (a a' : Allowed) : Prop where
  nvstate : ∀ r, a.nvstate r → a'.nvstate r
  triglog : ∀ r, a.triglog r → a'.triglog r
  hbeatlog : ∀ r, a.hbeatlog r → a'.hbeatlog r
  scripts : ∀ r, a.scripts r → a'.scripts r

theorem Tables.Within.mono {a a' : Allowed} {d : Tables} (h : d.Within a) (ha : a.Within a') :
    d.Within a' where
  nvstate r hr := ha.nvstate r (h.nvstate r hr)
  triglog r hr := ha.triglog r (h.triglog r hr)
  hbeatlog r hr := ha.hbeatlog r (h.hbeatlog r hr)
  scripts r hr := ha.scripts r (h.scripts r hr)

/-! ## A row is replaced -/

section

variable {ρ : Type} {table : Table ρ} {Q : Tables → Prop} {db : Conn Tables}

theorem simpleTX_all {statement : Conn Tables → Option (Conn Tables)}
    (hstatement : ∀ db', statement db = some db' → db'.All Q) (calls : Calls) (h : db.All Q) :
    (simpleTX calls statement db).1.All Q := by
  unfold simpleTX
  split
  · exact h
  split
  · cases hs : statement db with
    | none => exact h
    | some db' => exact hstatement db' hs
  · exact h

theorem dbTxBegin_all (calls : Calls) (h : db.All Q) : (dbTxBegin calls db).1.All Q :=
  simpleTX_all (fun _ => h.begin) calls h

theorem dbTxEnd_all (calls : Calls) (type : PassFail) (h : db.All Q) :
    (dbTxEnd calls type db).1.All Q := by
  cases type with
  | PASS => exact simpleTX_all (fun _ => h.commit) calls h
  | FAIL => exact simpleTX_all (fun _ => h.rollback) calls h

/-- What a removal from the table and an addition of the row keep is kept
by the function that does both. -/
theorem replaceRow_all (table : Table ρ) {params : Nat} {key : CString} {row : ρ}
    (hremove : ∀ d, Q d → Q (table.withRows (Lib.remove table.key (table.rows d) key) d))
    (hinsert : ∀ d, Q d → Q (table.withRows (table.rows d ++ [row]) d)) (sq : Answers)
    (h : db.All Q) : (replaceRow table params sq db key row).1.All Q := by
  have hdelete : ∀ {db : Conn Tables}, db.All Q → (dbDeleteRow table sq.delete db key).1.All Q := by
    intro db h
    unfold dbDeleteRow
    split
    · exact h.write hremove
    · exact h
  have hnew : ∀ {db : Conn Tables}, db.All Q → (insertRow table params sq.insert db row).1.All Q := by
    intro db h
    unfold insertRow
    split
    · exact h.write hinsert
    · exact h
  have hedit : ∀ {db : Conn Tables}, db.All Q → (editRow table params sq db key row).1.All Q := by
    intro db h
    unfold editRow
    dsimp only
    by_cases hp : (dbReadField table sq.select db key).isSome = true
    · rw [if_pos hp]
      split
      · exact hnew (hdelete h)
      · exact hdelete h
    · rw [if_neg hp]
      split
      · exact hnew h
      · exact h
  unfold replaceRow
  have hbegin := dbTxBegin_all sq.beginTx h
  revert hbegin
  rcases dbTxBegin sq.beginTx db with ⟨db', _ | _⟩ <;> intro hbegin
  · exact dbTxEnd_all sq.endTx _ (hedit hbegin)
  · exact hbegin

/-- A row that is read is there. -/
theorem dbReadField_found {calls : Calls} {key value : CString}
    (h : dbReadField table calls db key = some value) :
    ∃ r ∈ table.rows db.current, table.key r = key ∧ table.valueCol r = some value := by
  unfold dbReadField at h
  split at h
  · obtain ⟨r, hlookup, hvalue⟩ := Option.bind_eq_some_iff.mp h
    exact ⟨r, Lib.lookup_mem hlookup, Lib.lookup_key hlookup, hvalue⟩
  · cases h

/-- What a function reads was in a table that the condition holds of. -/
theorem readRow_found {sq : Answers} {key value : CString} (h : db.All Q)
    (hread : (readRow table sq db key).2 = some value) :
    ∃ d, Q d ∧ ∃ r ∈ table.rows d, table.key r = key ∧ table.valueCol r = some value := by
  unfold readRow at hread
  have hbegin := dbTxBegin_all sq.beginTx h
  revert hread hbegin
  rcases dbTxBegin sq.beginTx db with ⟨db', _ | _⟩ <;> intro hread hbegin
  · exact ⟨db'.current, hbegin.current, dbReadField_found hread⟩
  · cases hread

theorem DBFetchScriptByTag_found {sq : Answers} {byName : Calls} {trigaction : List TrigAction}
    {tagSubAddr code : CString} (h : db.All Q)
    (hread : (DBFetchScriptByTag sq byName trigaction db tagSubAddr).2 = some code) :
    ∃ d, Q d ∧ ∃ r ∈ d.scripts, r.scriptcode = code := by
  unfold DBFetchScriptByTag at hread
  have hbegin := dbTxBegin_all sq.beginTx h
  revert hread hbegin
  rcases dbTxBegin sq.beginTx db with ⟨db', _ | _⟩ <;> intro hread hbegin
  · obtain ⟨scriptName, -, hscript⟩ := Option.bind_eq_some_iff.mp hread
    obtain ⟨r, hr, -, hcode⟩ := dbReadField_found hscript
    exact ⟨db'.current, hbegin.current, r, hr, Option.some.inj hcode⟩
  · cases hread

theorem readRow_all (sq : Answers) (key : CString) (h : db.All Q) :
    (readRow table sq db key).1.All Q := by
  unfold readRow
  have hbegin := dbTxBegin_all sq.beginTx h
  revert hbegin
  rcases dbTxBegin sq.beginTx db with ⟨db', _ | _⟩ <;> intro hbegin
  · exact dbTxEnd_all sq.endTx .PASS hbegin
  · exact hbegin

theorem DBFetchScriptByTag_all (sq : Answers) (byName : Calls) (trigaction : List TrigAction)
    (tagSubAddr : CString) (h : db.All Q) :
    (DBFetchScriptByTag sq byName trigaction db tagSubAddr).1.All Q := by
  unfold DBFetchScriptByTag
  have hbegin := dbTxBegin_all sq.beginTx h
  revert hbegin
  rcases dbTxBegin sq.beginTx db with ⟨db', _ | _⟩ <;> intro hbegin
  · exact dbTxEnd_all sq.endTx .PASS hbegin
  · exact hbegin

end

/-! ## Every table -/

theorem forall_mem_remove {ρ : Type} {key : ρ → CString} {P : ρ → Prop} {rows : List ρ}
    (h : ∀ r ∈ rows, P r) (k : CString) : ∀ r ∈ Lib.remove key rows k, P r :=
  fun r hr => h r (List.mem_filter.mp hr).1

theorem forall_mem_concat {ρ : Type} {P : ρ → Prop} {rows : List ρ} {row : ρ}
    (h : ∀ r ∈ rows, P r) (hrow : P row) : ∀ r ∈ rows ++ [row], P r :=
  List.forall_mem_append.mpr ⟨h, List.forall_mem_singleton.mpr hrow⟩

/-- **A call that writes a row adds no other.** -/
theorem Write.exec_within {a : Allowed} {db : Conn Tables} (h : db.All (Tables.Within a))
    {w : Write} (hw : a.Permits w) (sq : Answers) :
    (w.exec sq db).1.All (Tables.Within a) := by
  cases w with
  | DBWriteNVState now key value =>
    exact replaceRow_all Store.nvstate
      (fun d hd => { hd with nvstate := forall_mem_remove hd.nvstate key })
      (fun d hd => { hd with nvstate := forall_mem_concat hd.nvstate hw }) sq h
  | DBUpdateTrigLog now source schema nvpairs =>
    exact replaceRow_all Store.triglog
      (fun d hd => { hd with triglog := forall_mem_remove hd.triglog source })
      (fun d hd => { hd with triglog := forall_mem_concat hd.triglog hw }) sq h
  | DBUpdateHeartbeatLog now source =>
    exact replaceRow_all Store.hbeatlog
      (fun d hd => { hd with hbeatlog := forall_mem_remove hd.hbeatlog source })
      (fun d hd => { hd with hbeatlog := forall_mem_concat hd.hbeatlog hw }) sq h
  | DBIRScript name script =>
    exact replaceRow_all Store.scripts
      (fun d hd => { hd with scripts := forall_mem_remove hd.scripts name })
      (fun d hd => { hd with scripts := forall_mem_concat hd.scripts hw }) sq h

end XplEvent.Store
