import XplEvent.Store.Database

/-!
# Replacing a row, whatever SQLite answers

A function that writes a row should leave one of two states: the row
replaced when it returns `PASS`, the tables as they were when it returns
`FAIL`. It does not under all answers of SQLite. A `BEGIN` whose step fails
is taken for one that succeeded, so that the statements are committed one
by one; the `COMMIT` may fail unnoticed; and a row that could not be read is
taken for one that is not there. `replaceRow_iff` says which patterns of
answers leave one of the two states.
-/

namespace XplEvent.Store

open Lib

variable {ρ : Type} {table : Table ρ}

/-- One of the two states: the row replaced, or the tables unchanged. -/
def ReplacesAtomically (table : Table ρ) (d : Tables) (row : ρ)
    (result : Conn Tables × PassFail) : Prop :=
  match result.2 with
  | .PASS => (table.rows result.1.committed).Perm (replace table.key (table.rows d) row) ∧
    result.1.committed = table.withRows (table.rows result.1.committed) d
  | .FAIL => result.1.committed = d

/-- The row of the key is read. -/
def Reads (table : Table ρ) (sq : Answers) (d : Tables) (key : CString) : Prop :=
  sq.select.ok 1 = true ∧
    ((lookup table.key (table.rows d) key).bind table.valueCol).isSome = true

instance (table : Table ρ) (sq : Answers) (d : Tables) (key : CString) :
    Decidable (Reads table sq d key) := inferInstanceAs (Decidable (_ ∧ _))

/-- The end of the transaction is carried out. -/
def Closes (sq : Answers) : Prop := sq.endTx.prepare = true ∧ sq.endTx.step = true

instance (sq : Answers) : Decidable (Closes sq) := inferInstanceAs (Decidable (_ ∧ _))

/-- The answers of SQLite under which one of the two states is left:
`inserted` is the row the function inserts, `row` the one it should. -/
inductive Sound (table : Table ρ) (params : Nat) (sq : Answers) (d : Tables) (row inserted : ρ) :
    Prop
  /-- No transaction can be prepared. -/
  | refused (h : sq.beginTx.prepare = false)
  /-- The row is read and cannot be deleted. -/
  | kept (hreads : Reads table sq d (table.key row)) (hdelete : sq.delete.ok 1 = false)
  /-- Nothing is inserted, and nothing deleted that stays deleted. -/
  | undone (hinsert : sq.insert.ok params = false)
      (h : sq.beginTx.step = true ∨ ¬ Reads table sq d (table.key row))
  /-- The row is there already, and nothing is committed. -/
  | same (hbegin : sq.beginTx.step = true) (hcloses : ¬ Closes sq)
      (h : lookup table.key (table.rows d) (table.key row) = some row)
  /-- The row is inserted for the one that was found, or for none. -/
  | replaced (hinsert : sq.insert.ok params = true)
      (hdelete : Reads table sq d (table.key row) → sq.delete.ok 1 = true)
      (hcommit : sq.beginTx.step = true → Closes sq)
      (hreads : lookup table.key (table.rows d) (table.key row) ≠ none →
        Reads table sq d (table.key row))
      (hrow : inserted = row)

/-! ## The statements in and outside a transaction -/

theorem dbTxBegin_autocommit (calls : Calls) (d : Tables) :
    dbTxBegin calls (.autocommit d) =
      if calls.prepare then (.session calls.step d d, .PASS) else (.autocommit d, .FAIL) := by
  unfold dbTxBegin simpleTX
  cases calls.prepare with
  | true =>
    cases calls.step with
    | true => rfl
    | false => rfl
  | false => rfl

theorem simpleTX_fst (calls : Calls) (statement : Conn Tables → Option (Conn Tables))
    (db : Conn Tables) : (simpleTX calls statement db).1 =
      if calls.prepare = true ∧ calls.step = true then (statement db).getD db else db := by
  unfold simpleTX
  cases calls.prepare with
  | true =>
    cases calls.step with
    | true => rfl
    | false => rfl
  | false => rfl

/-- The connection behind the end of a transaction. -/
theorem dbTxEnd_session (sq : Answers) (res : PassFail) (open_ : Bool) (d d' : Tables) :
    (dbTxEnd sq.endTx res (.session open_ d d')).1 =
      if Closes sq then .autocommit (if open_ = true ∧ res = .FAIL then d else d')
      else .session open_ d d' := by
  unfold dbTxEnd
  cases res with
  | PASS =>
    have hkeep : ¬ (open_ = true ∧ PassFail.PASS = .FAIL) := fun h => nomatch h.2
    rw [simpleTX_fst, Conn.session_commit, if_neg hkeep]
    rfl
  | FAIL =>
    rw [simpleTX_fst, Conn.session_rollback]
    cases open_ with
    | true => rfl
    | false => rfl

/-- What is committed behind the end of a transaction. -/
theorem dbTxEnd_committed (sq : Answers) (res : PassFail) (open_ : Bool) (d d' : Tables) :
    (dbTxEnd sq.endTx res (.session open_ d d')).1.committed =
      if open_ = true ∧ ¬ (res = .PASS ∧ Closes sq) then d else d' := by
  rw [dbTxEnd_session]
  by_cases hc : Closes sq
  · cases res with
    | PASS => simp [hc, Conn.autocommit]
    | FAIL => simp [hc, Conn.autocommit]
  · simp [hc, Conn.session_committed]

theorem dbReadField_isSome (table : Table ρ) (sq : Answers) (open_ : Bool) (d d' : Tables)
    (key : CString) :
    (dbReadField table sq.select (.session open_ d d') key).isSome = true ↔
      Reads table sq d' key := by
  unfold dbReadField Reads
  rw [Conn.session_current]
  by_cases hok : sq.select.ok 1 = true
  · rw [if_pos hok]
    exact ⟨fun h => ⟨hok, h⟩, fun h => h.2⟩
  · rw [if_neg hok]
    exact iff_of_false Bool.false_ne_true fun h => hok h.1

/-- The tables behind the deletion, if the row was read. -/
def deleted (table : Table ρ) (sq : Answers) (d : Tables) (key : CString) : Tables :=
  if Reads table sq d key then table.withRows (remove table.key (table.rows d) key) d else d

/-- What `editRow` does to the current tables, and its result. -/
theorem editRow_session (table : Table ρ) (params : Nat) (sq : Answers) (open_ : Bool)
    (d d' : Tables) (key : CString) (row : ρ) :
    editRow table params sq (.session open_ d d') key row =
      if Reads table sq d' key ∧ sq.delete.ok 1 = false then (.session open_ d d', .FAIL)
      else if sq.insert.ok params then
        (.session open_ d (table.withRows (table.rows (deleted table sq d' key) ++ [row])
          (deleted table sq d' key)), .PASS)
      else (.session open_ d (deleted table sq d' key), .FAIL) := by
  unfold editRow deleted dbDeleteRow insertRow
  have hread := dbReadField_isSome table sq open_ d d' key
  by_cases hr : Reads table sq d' key
  · cases hdel : sq.delete.ok 1 with
    | true =>
      cases hins : sq.insert.ok params with
      | true => simp [hread, hr]
      | false => simp [hread, hr]
    | false => simp [hread, hr]
  · cases hins : sq.insert.ok params with
    | true => simp [hread, hr]
    | false => simp [hread, hr]

/-- **What a function that writes a row leaves committed**, begun without
an open transaction, and what it returns. -/
theorem replaceRow_committed (table : Table ρ) (params : Nat) (sq : Answers) (d : Tables)
    (key : CString) (row : ρ) :
    let result := replaceRow table params sq (.autocommit d) key row
    let new := table.withRows (table.rows (deleted table sq d key) ++ [row])
      (deleted table sq d key)
    if sq.beginTx.prepare = false ∨ (Reads table sq d key ∧ sq.delete.ok 1 = false) then
      result.1.committed = d ∧ result.2 = .FAIL
    else if sq.insert.ok params then
      result.1.committed = (if sq.beginTx.step = true ∧ ¬ Closes sq then d else new) ∧
        result.2 = .PASS
    else
      result.1.committed = (if sq.beginTx.step then d else deleted table sq d key) ∧
        result.2 = .FAIL := by
  intro result new
  have hresult : result = replaceRow table params sq (.autocommit d) key row := rfl
  unfold replaceRow at hresult
  rw [dbTxBegin_autocommit] at hresult
  cases hp : sq.beginTx.prepare with
  | false =>
    rw [hp] at hresult
    rw [if_pos (.inl rfl), hresult]
    exact ⟨rfl, rfl⟩
  | true =>
    rw [hp, if_pos rfl] at hresult
    simp only [editRow_session] at hresult
    by_cases hkept : Reads table sq d key ∧ sq.delete.ok 1 = false
    · rw [if_pos (.inr hkept), hresult]
      simp only [if_pos hkept, dbTxEnd_committed]
      exact ⟨by split <;> rfl, trivial⟩
    · have hor : ¬ (true = false ∨ Reads table sq d key ∧ sq.delete.ok 1 = false) :=
        fun h => h.elim (fun h => nomatch h) hkept
      rw [if_neg hor, hresult]
      simp only [if_neg hkept]
      cases hins : sq.insert.ok params with
      | true => simp [dbTxEnd_committed, new]
      | false => simp [dbTxEnd_committed]

/-- The connection behind a transaction that is ended if it was begun. -/
theorem replaceRow_working (table : Table ρ) (params : Nat) {sq : Answers}
    (h : sq.beginTx.prepare = true → sq.beginTx.step = true → Closes sq) (d : Tables)
    (key : CString) (row : ρ) :
    (replaceRow table params sq (.autocommit d) key row).1.working = none := by
  have hend : sq.beginTx.prepare = true → ∀ (res : PassFail) (d' : Tables),
      (dbTxEnd sq.endTx res (.session sq.beginTx.step d d')).1.working = none := by
    intro hp res d'
    rw [dbTxEnd_session]
    by_cases hc : Closes sq
    · rw [if_pos hc]
      rfl
    · have hstep : sq.beginTx.step = false := Bool.eq_false_iff.mpr fun hstep => hc (h hp hstep)
      rw [if_neg hc, hstep]
      rfl
  unfold replaceRow
  rw [dbTxBegin_autocommit]
  cases hp : sq.beginTx.prepare with
  | false => rfl
  | true =>
    simp only [if_true, editRow_session]
    split
    · exact hend hp _ _
    · split
      · exact hend hp _ _
      · exact hend hp _ _

/-- A read outside a transaction. -/
theorem readRow_autocommit (table : Table ρ) {sq : Answers} (hp : sq.beginTx.prepare = true)
    (hselect : sq.select.ok 1 = true) (h : sq.beginTx.step = true → Closes sq) (d : Tables)
    (key : CString) : readRow table sq (.autocommit d) key =
      (.autocommit d, (lookup table.key (table.rows d) key).bind table.valueCol) := by
  have hend : (dbTxEnd sq.endTx .PASS (.session sq.beginTx.step d d)).1 = .autocommit d := by
    rw [dbTxEnd_session]
    by_cases hc : Closes sq
    · rw [if_pos hc, if_neg fun h => nomatch h.2]
    · have hstep : sq.beginTx.step = false := Bool.eq_false_iff.mpr fun hstep => hc (h hstep)
      rw [if_neg hc, hstep]
      rfl
  unfold readRow
  rw [dbTxBegin_autocommit, if_pos hp]
  simp only [hend, dbReadField, Conn.session_current, hselect, if_true]

/-! ## The exact condition -/

theorem deleted_rows (table : Table ρ) (sq : Answers) (d : Tables) (key : CString) :
    table.rows (deleted table sq d key) =
      if Reads table sq d key then remove table.key (table.rows d) key else table.rows d := by
  unfold deleted
  split
  · rw [table.rows_withRows]
  · rfl

theorem deleted_frame (table : Table ρ) (sq : Answers) (d : Tables) (key : CString) (r : List ρ) :
    table.withRows r (deleted table sq d key) = table.withRows r d := by
  unfold deleted
  split
  · rw [table.withRows_withRows]
  · rfl

theorem Reads.found {sq : Answers} {d : Tables} {key : CString} (h : Reads table sq d key) :
    lookup table.key (table.rows d) key ≠ none := by
  intro hnone
  have hsome := h.2
  rw [hnone] at hsome
  cases hsome

/-- A deletion that is committed alone changes the tables. -/
theorem deleted_eq_iff (sq : Answers) (d : Tables) (key : CString) :
    deleted table sq d key = d ↔ ¬ Reads table sq d key := by
  constructor
  · intro h hr
    refine hr.found ?_
    have hrows := deleted_rows table sq d key
    rw [h, if_pos hr] at hrows
    rw [hrows]
    exact lookup_remove_self (table.rows d) key
  · intro hr
    rw [deleted, if_neg hr]

/-- The tables with the row inserted are the tables with the row replaced. -/
theorem inserted_iff {d : Tables} (hd : Keyed table.key (table.rows d)) (sq : Answers)
    (row inserted : ρ) :
    (table.rows (deleted table sq d (table.key row)) ++ [inserted]).Perm
        (replace table.key (table.rows d) row) ↔
      (lookup table.key (table.rows d) (table.key row) ≠ none →
        Reads table sq d (table.key row)) ∧ inserted = row := by
  rw [deleted_rows]
  by_cases hr : Reads table sq d (table.key row)
  · rw [if_pos hr, remove_append_perm_iff]
    exact ⟨fun h => ⟨fun _ => hr, h⟩, fun h => h.2⟩
  · rw [if_neg hr, hd.append_perm_replace_iff]
    constructor
    · rintro ⟨hnone, hrow⟩
      exact ⟨fun h => absurd hnone h, hrow⟩
    · rintro ⟨h, hrow⟩
      refine ⟨?_, hrow⟩
      cases hl : lookup table.key (table.rows d) (table.key row) with
      | none => rfl
      | some r => exact absurd (h fun hnone => nomatch hl.symm.trans hnone) hr

section

variable {params : Nat} {sq : Answers} {d : Tables} {row inserted : ρ}

/-- The `BEGIN` is prepared, and a row that is read is deleted. -/
def Proceeds (table : Table ρ) (sq : Answers) (d : Tables) (key : CString) : Prop :=
  ¬ (sq.beginTx.prepare = false ∨ (Reads table sq d key ∧ sq.delete.ok 1 = false))

/-- A row was inserted and the `COMMIT` lost. -/
theorem sound_iff_same (h : Proceeds table sq d (table.key row))
    (hins : sq.insert.ok params = true) (hstep : sq.beginTx.step = true) (hlost : ¬ Closes sq) :
    Sound table params sq d row inserted ↔
      lookup table.key (table.rows d) (table.key row) = some row := by
  constructor
  · intro hsound
    cases hsound with
    | refused hp => exact absurd (.inl hp) h
    | kept hreads hdelete => exact absurd (.inr ⟨hreads, hdelete⟩) h
    | undone hinsert => exact nomatch hins.symm.trans hinsert
    | same _ _ hrow => exact hrow
    | replaced _ _ hcommit => exact absurd (hcommit hstep) hlost
  · exact .same hstep hlost

/-- A row was inserted and is committed. -/
theorem sound_iff_replaced (h : Proceeds table sq d (table.key row))
    (hins : sq.insert.ok params = true) (hkept : ¬ (sq.beginTx.step = true ∧ ¬ Closes sq)) :
    Sound table params sq d row inserted ↔
      (lookup table.key (table.rows d) (table.key row) ≠ none →
        Reads table sq d (table.key row)) ∧ inserted = row := by
  constructor
  · intro hsound
    cases hsound with
    | refused hp => exact absurd (.inl hp) h
    | kept hreads hdelete => exact absurd (.inr ⟨hreads, hdelete⟩) h
    | undone hinsert => exact nomatch hins.symm.trans hinsert
    | same hbegin hcloses => exact absurd ⟨hbegin, hcloses⟩ hkept
    | replaced _ _ _ hreads hrow => exact ⟨hreads, hrow⟩
  · rintro ⟨hreads, hrow⟩
    refine .replaced hins (fun hr => ?_) (fun hstep => ?_) hreads hrow
    · exact (Bool.not_eq_false _).mp fun hdelete => h (.inr ⟨hr, hdelete⟩)
    · exact Decidable.of_not_not fun hc => hkept ⟨hstep, hc⟩

/-- No row was inserted, and there is no transaction to undo. -/
theorem sound_iff_undone (h : Proceeds table sq d (table.key row))
    (hins : sq.insert.ok params = false) (hstep : sq.beginTx.step = false) :
    Sound table params sq d row inserted ↔ ¬ Reads table sq d (table.key row) := by
  constructor
  · intro hsound
    cases hsound with
    | refused hp => exact absurd (.inl hp) h
    | kept hreads hdelete => exact absurd (.inr ⟨hreads, hdelete⟩) h
    | undone _ hr => exact hr.resolve_left fun htrue => nomatch hstep.symm.trans htrue
    | same hbegin => exact nomatch hstep.symm.trans hbegin
    | replaced hinsert => exact nomatch hins.symm.trans hinsert
  · exact fun hr => .undone hins (.inr hr)

end

/-- **One of the two states is left exactly when** SQLite answers soundly. -/
theorem replaceRow_iff (table : Table ρ) {d : Tables} (hd : Keyed table.key (table.rows d))
    (params : Nat) (sq : Answers) (row inserted : ρ) :
    ReplacesAtomically table d row
        (replaceRow table params sq (.autocommit d) (table.key row) inserted) ↔
      Sound table params sq d row inserted := by
  have hresult := replaceRow_committed table params sq d (table.key row) inserted
  simp only at hresult
  unfold ReplacesAtomically
  by_cases hfail : sq.beginTx.prepare = false ∨
      (Reads table sq d (table.key row) ∧ sq.delete.ok 1 = false)
  · rw [if_pos hfail] at hresult
    rw [hresult.2]
    refine iff_of_true hresult.1 ?_
    exact hfail.elim .refused fun h => .kept h.1 h.2
  · rw [if_neg hfail] at hresult
    cases hins : sq.insert.ok params with
    | true =>
      rw [hins, if_pos rfl] at hresult
      rw [hresult.2, hresult.1]
      by_cases hlost : sq.beginTx.step = true ∧ ¬ Closes sq
      · rw [if_pos hlost, sound_iff_same hfail hins hlost.1 hlost.2, ← hd.perm_replace_iff]
        exact and_iff_left (table.withRows_rows d).symm
      · rw [if_neg hlost, sound_iff_replaced hfail hins hlost]
        simp only [table.rows_withRows, deleted_frame, inserted_iff hd, and_true]
    | false =>
      rw [hins, if_neg Bool.false_ne_true] at hresult
      rw [hresult.2, hresult.1]
      cases hstep : sq.beginTx.step with
      | true => exact iff_of_true rfl (.undone hins (.inl hstep))
      | false =>
        rw [if_neg Bool.false_ne_true, sound_iff_undone hfail hins hstep]
        exact deleted_eq_iff sq d (table.key row)

end XplEvent.Store
