import XplEvent.Store.History

/-!
# A store that remembers

If transactions begin and end and queries are answered, the database is a
map for each table, whatever becomes of the single deletions and
insertions: a function that writes a row puts it or leaves the tables as
they are, as it says (`Write.exec_reliable`), and a read gives what is
there. Of a script the copy with its quotes doubled is put.

A `NULL` in a column that is read before a row is replaced would be taken
for a row that is not there. The functions never write one.
-/

namespace XplEvent.Store

open Lib

/-- Transactions begin and end, and queries are answered. -/
structure Answers.Reliable (sq : Answers) : Prop where
  begins : sq.beginTx.prepare = true ∧ sq.beginTx.step = true
  selects : sq.select.ok 1 = true
  ends : Closes sq

/-- No column that is read is `NULL`. -/
structure Tables.Filled (d : Tables) : Prop where
  nvstate : ∀ r ∈ d.nvstate, r.value.isSome = true
  triglog : ∀ r ∈ d.triglog, r.nvpairs.isSome = true

/-- The row that a call puts, as the call that would put it unchanged. -/
def Write.stored : Write → Write
  | .DBIRScript name script => .DBIRScript name (escapeQuotes script)
  | w => w

/-- The maps behind a call. -/
def Maps.after (m : Maps) (w : Write) : PassFail → Maps
  | .PASS => m.write w.stored
  | .FAIL => m

section

variable {ρ : Type}

/-- A row is replaced, or the table is left as it is. -/
theorem replaceRow_reliable (table : Table ρ) (params : Nat) {sq : Answers} (hsq : sq.Reliable)
    {d : Tables} (hd : Keyed table.key (table.rows d))
    (hfilled : ∀ r ∈ table.rows d, (table.valueCol r).isSome = true) (key : CString) (row : ρ)
    (hkey : table.key row = key) :
    ∃ rows, (replaceRow table params sq (.autocommit d) key row).1 =
        .autocommit (table.withRows rows d) ∧ Keyed table.key rows ∧
      (∀ r ∈ rows, r = row ∨ r ∈ table.rows d) ∧
      lookup table.key rows = match (replaceRow table params sq (.autocommit d) key row).2 with
        | .PASS => put (lookup table.key (table.rows d)) key row
        | .FAIL => lookup table.key (table.rows d) := by
  subst hkey
  have hworking := replaceRow_working table params (fun _ _ => hsq.ends) d (table.key row) row
  have hreads : lookup table.key (table.rows d) (table.key row) ≠ none →
      Reads table sq d (table.key row) := by
    intro hfound
    obtain ⟨r, hr⟩ := Option.ne_none_iff_exists'.mp hfound
    refine ⟨hsq.selects, ?_⟩
    rw [hr]
    exact hfilled r (lookup_mem hr)
  have hsound : Sound table params sq d row row := by
    cases hinsert : sq.insert.ok params with
    | false => exact .undone hinsert (.inl hsq.begins.2)
    | true =>
      by_cases hkept : Reads table sq d (table.key row) ∧ sq.delete.ok 1 = false
      · exact .kept hkept.1 hkept.2
      · refine .replaced hinsert (fun hr => ?_) (fun _ => hsq.ends) hreads rfl
        exact (Bool.not_eq_false _).mp fun hdelete => hkept ⟨hr, hdelete⟩
  have hatomic := (replaceRow_iff table hd params sq row row).mpr hsound
  unfold ReplacesAtomically at hatomic
  rcases hresult : replaceRow table params sq (.autocommit d) (table.key row) row with
    ⟨⟨committed, working⟩, res⟩
  rw [hresult] at hworking hatomic
  cases hworking
  cases res with
  | PASS =>
    obtain ⟨hperm, hframe⟩ := hatomic
    obtain ⟨hkeyed, hmap⟩ := replaced_table hd hperm
    refine ⟨table.rows committed, congrArg Conn.autocommit hframe, hkeyed, fun r hr => ?_, hmap⟩
    rcases List.mem_append.mp (hperm.mem_iff.mp hr) with hr | hr
    · exact .inr (List.mem_filter.mp hr).1
    · exact .inl (List.mem_singleton.mp hr)
  | FAIL =>
    refine ⟨table.rows d, ?_, hd, fun r hr => .inr hr, rfl⟩
    rw [table.withRows_rows]
    exact congrArg Conn.autocommit hatomic

end

/-- **A call that writes a row puts it, or leaves the tables as they are**,
as its result says. -/
theorem Write.exec_reliable {sq : Answers} (hsq : sq.Reliable) {d : Tables} (hd : d.Keyed)
    (hfilled : d.Filled) (w : Write) :
    ∃ d', (w.exec sq (.autocommit d)).1 = .autocommit d' ∧ d'.Keyed ∧ d'.Filled ∧
      d'.maps = d.maps.after w (w.exec sq (.autocommit d)).2 := by
  cases w with
  | DBWriteNVState now key value =>
    obtain ⟨rows, hdb, hkeyed, hrows, hmap⟩ := replaceRow_reliable Store.nvstate 2
      hsq hd.nvstate hfilled.nvstate key ⟨key, some value, now⟩ rfl
    refine ⟨{ d with nvstate := rows }, hdb, { hd with nvstate := hkeyed }, ?_, ?_⟩
    · refine { hfilled with nvstate := fun r hr => ?_ }
      rcases hrows r hr with rfl | hr
      · rfl
      · exact hfilled.nvstate r hr
    · simp only [Write.exec, Store.DBWriteNVState]
      cases hres : (replaceRow Store.nvstate 2 sq (.autocommit d) key ⟨key, some value, now⟩).2 with
      | PASS | FAIL =>
        rw [hres] at hmap
        exact congrArg (fun f => { d.maps with nvstate := f }) hmap
  | DBUpdateTrigLog now source schema nvpairs =>
    obtain ⟨rows, hdb, hkeyed, hrows, hmap⟩ := replaceRow_reliable Store.triglog 3
      hsq hd.triglog hfilled.triglog source ⟨source, schema, some nvpairs, now⟩ rfl
    refine ⟨{ d with triglog := rows }, hdb, { hd with triglog := hkeyed }, ?_, ?_⟩
    · refine { hfilled with triglog := fun r hr => ?_ }
      rcases hrows r hr with rfl | hr
      · rfl
      · exact hfilled.triglog r hr
    · simp only [Write.exec, Store.DBUpdateTrigLog]
      cases hres : (replaceRow Store.triglog 3 sq (.autocommit d) source
          ⟨source, schema, some nvpairs, now⟩).2 with
      | PASS | FAIL =>
        rw [hres] at hmap
        exact congrArg (fun f => { d.maps with triglog := f }) hmap
  | DBUpdateHeartbeatLog now source =>
    obtain ⟨rows, hdb, hkeyed, -, hmap⟩ := replaceRow_reliable Store.hbeatlog 1
      hsq hd.hbeatlog (fun _ _ => rfl) source ⟨source, now⟩ rfl
    refine ⟨{ d with hbeatlog := rows }, hdb, { hd with hbeatlog := hkeyed },
      ⟨hfilled.nvstate, hfilled.triglog⟩, ?_⟩
    simp only [Write.exec, Store.DBUpdateHeartbeatLog]
    cases hres : (replaceRow Store.hbeatlog 1 sq (.autocommit d) source ⟨source, now⟩).2 with
    | PASS | FAIL =>
      rw [hres] at hmap
      exact congrArg (fun f => { d.maps with hbeatlog := f }) hmap
  | DBIRScript name script =>
    obtain ⟨rows, hdb, hkeyed, -, hmap⟩ := replaceRow_reliable Store.scripts 2
      hsq hd.scripts (fun _ _ => rfl) name ⟨name, escapeQuotes script⟩ rfl
    refine ⟨{ d with scripts := rows }, hdb, { hd with scripts := hkeyed },
      ⟨hfilled.nvstate, hfilled.triglog⟩, ?_⟩
    simp only [Write.exec, Store.DBIRScript]
    cases hres : (replaceRow Store.scripts 2 sq (.autocommit d) name
        ⟨name, escapeQuotes script⟩).2 with
    | PASS | FAIL =>
      rw [hres] at hmap
      exact congrArg (fun f => { d.maps with scripts := f }) hmap

/-- **A function that reads gives what is there.** -/
theorem readRow_reliable {ρ : Type} (table : Table ρ) {sq : Answers} (hsq : sq.Reliable)
    (d : Tables) (key : CString) : readRow table sq (.autocommit d) key =
      (.autocommit d, (lookup table.key (table.rows d) key).bind table.valueCol) :=
  readRow_autocommit table hsq.begins.1 hsq.selects (fun _ => hsq.ends) d key

/-- The script for a tag, by its name. -/
def scriptByTag (trigaction : List TrigAction) (m : Maps) (tagSubAddr : CString) :
    Option CString :=
  ((lookup TrigAction.source trigaction tagSubAddr).bind (·.action)).bind fun name =>
    (m.scripts name).map Script.scriptcode

theorem DBFetchScriptByTag_reliable {sq : Answers} (hsq : sq.Reliable) {byName : Calls}
    (hbyName : byName.ok 1 = true) (trigaction : List TrigAction) (d : Tables)
    (tagSubAddr : CString) :
    DBFetchScriptByTag sq byName trigaction (.autocommit d) tagSubAddr =
      (.autocommit d, scriptByTag trigaction d.maps tagSubAddr) := by
  have hend : (dbTxEnd sq.endTx .PASS (.session true d d)).1 = .autocommit d := by
    rw [dbTxEnd_session, if_pos hsq.ends, if_neg fun h => nomatch h.2]
  have hread : dbReadField scripts byName (.session true d d) =
      fun name => (d.maps.scripts name).map Script.scriptcode := by
    funext name
    rw [dbReadField, if_pos hbyName, Conn.session_current, Option.map_eq_bind]
    rfl
  unfold DBFetchScriptByTag scriptByTag
  rw [dbTxBegin_autocommit, if_pos hsq.begins.1, hsq.begins.2]
  simp only [hsq.selects, if_true, hend, hread]

end XplEvent.Store
