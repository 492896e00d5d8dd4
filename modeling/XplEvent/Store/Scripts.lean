import Mathlib.Algebra.Group.Nat.Defs
import XplEvent.Store.History

/-!
# A script and back

`DBIRScript` copies the text of a script into a buffer that it doubles as
it fills up, with every single quote repeated, and binds the copy to a
parameter of the `INSERT`. A bound text is stored as it is, so that the
quotes stay repeated: a script comes back as it was exactly when it has
none.

Here the copy is made as the source makes it. The buffer is never written
outside its bounds: before a turn writes its one or two bytes there is
room for three, and a size that no longer fits an `unsigned` is zero,
which the allocator refuses.
-/

namespace XplEvent.Store

open Lib (Conn)

/-! ## The copy -/

/-- The allocator. A request for nothing is answered with `NULL`. -/
structure Allocator where
  grants : Nat → Bool
  zero : grants 0 = false

/-- `MALLOC_FAIL` of an allocation. -/
def Allocator.MALLOC_FAIL (a : Allocator) (size : UInt32) : Except Fault Unit :=
  if a.grants size.toNat then .ok () else .error .fatal

/-- The variables of the copy. -/
structure ScriptBuf where
  scriptBufSize : UInt32
  scriptByteCount : UInt32
  scriptBuf : CString
deriving Repr

/-- Grow the buffer if necessary. -/
def ScriptBuf.grow (a : Allocator) (b : ScriptBuf) : Except Fault ScriptBuf :=
  if b.scriptBufSize - b.scriptByteCount ≤ 3 then do
    let scriptBufSize := b.scriptBufSize <<< 1
    a.MALLOC_FAIL scriptBufSize
    return { b with scriptBufSize := scriptBufSize }
  else return b

/-- `scriptBuf[scriptByteCount++] = c`. -/
def ScriptBuf.put (c : CChar) (b : ScriptBuf) : Except Fault ScriptBuf := do
  let scriptBuf ← bufPut b.scriptBufSize.toNat b.scriptBuf c
  return { b with scriptBuf := scriptBuf, scriptByteCount := b.scriptByteCount + 1 }

/-- A single quote is repeated in the output buffer. -/
def ScriptBuf.repeatQuote (c : CChar) (b : ScriptBuf) : Except Fault ScriptBuf :=
  if c = 39 then b.put 39 else .ok b

/-- A turn of the loop. -/
def copyByte (a : Allocator) (b : ScriptBuf) (c : CChar) : Except Fault ScriptBuf := do
  let b ← b.grow a
  let b ← b.repeatQuote c
  b.put c

/-- The copy of a script with its single quotes repeated. -/
def copyScript (a : Allocator) (script : CString) : Except Fault CString := do
  a.MALLOC_FAIL 2048
  let b ← script.foldlM (copyByte a) ⟨2048, 0, []⟩
  bufEnd b.scriptBufSize.toNat b.scriptBuf

/-- `DBIRScript`, from the copy on. -/
def copyAndStore (a : Allocator) (sq : Answers) (db : Conn Tables) (name script : CString) :
    Except Fault (Conn Tables × PassFail) := do
  let scriptBuf ← copyScript a script
  return replaceRow scripts 2 sq db name ⟨name, scriptBuf⟩

/-- What a byte becomes in the copy. -/
def escapeQuote (c : CChar) : CString := if c = 39 then [39, c] else [c]

/-- The buffer has room for the terminator, and its size is a power of
two. -/
structure ScriptBuf.Fits (b : ScriptBuf) : Prop where
  size : ∃ k, 11 ≤ k ∧ k ≤ 31 ∧ b.scriptBufSize.toNat = 2 ^ k
  count : b.scriptByteCount.toNat = b.scriptBuf.length
  room : b.scriptBuf.length < b.scriptBufSize.toNat

/-- The buffer grows to where three more bytes fit, or the allocator
refuses. -/
theorem ScriptBuf.grow_eq (a : Allocator) {b : ScriptBuf} (h : b.Fits) :
    b.grow a = .error .fatal ∨ ∃ b', b.grow a = .ok b' ∧ b'.Fits ∧ b'.scriptBuf = b.scriptBuf ∧
      b.scriptBuf.length + 3 < b'.scriptBufSize.toNat := by
  obtain ⟨k, hk, hk', hsize⟩ := h.size
  have hroom := h.room
  have hle : b.scriptByteCount ≤ b.scriptBufSize := by
    rw [UInt32.le_iff_toNat_le, h.count]
    omega
  have hleft := UInt32.toNat_sub_of_le _ _ hle
  rw [h.count] at hleft
  unfold ScriptBuf.grow
  by_cases hfull : b.scriptBufSize - b.scriptByteCount ≤ 3
  · rw [if_pos hfull]
    have hdouble : (b.scriptBufSize <<< 1).toNat = 2 ^ (k + 1) % 2 ^ 32 := by
      rw [UInt32.toNat_shiftLeft, hsize, Nat.shiftLeft_eq, Nat.pow_succ]
      rfl
    cases hgrant : a.grants (b.scriptBufSize <<< 1).toNat with
    | false =>
      left
      simp only [Allocator.MALLOC_FAIL, hgrant]
      rfl
    | true =>
      have hsmall : k + 1 ≤ 31 := by
        by_cases htop : k = 31
        · rw [hdouble, htop] at hgrant
          exact absurd hgrant (by rw [show 2 ^ (31 + 1) % 2 ^ 32 = 0 from rfl, a.zero]; decide)
        · omega
      have hsize' : (b.scriptBufSize <<< 1).toNat = 2 ^ (k + 1) := by
        rw [hdouble]
        exact Nat.mod_eq_of_lt (Nat.pow_lt_pow_right (by decide) (by omega))
      have hleast : 2 ^ 11 ≤ 2 ^ k := Nat.pow_le_pow_right (by decide) hk
      have hmore : b.scriptBuf.length + 3 < (b.scriptBufSize <<< 1).toNat := by
        rw [hsize', Nat.pow_succ]
        omega
      refine .inr ⟨{ b with scriptBufSize := b.scriptBufSize <<< 1 }, ?_, ?_, rfl, hmore⟩
      · simp only [Allocator.MALLOC_FAIL, hgrant]
        rfl
      · exact ⟨⟨k + 1, by omega, hsmall, hsize'⟩, h.count, by
          show b.scriptBuf.length < (b.scriptBufSize <<< 1).toNat
          omega⟩
  · rw [if_neg hfull]
    refine .inr ⟨b, rfl, h, rfl, ?_⟩
    rw [UInt32.le_iff_toNat_le, hleft] at hfull
    have hthree : (3 : UInt32).toNat = 3 := rfl
    omega

/-- A byte for which there is room behind it. -/
theorem ScriptBuf.put_eq (c : CChar) {b : ScriptBuf} (h : b.Fits)
    (hroom : b.scriptBuf.length + 1 < b.scriptBufSize.toNat) : ∃ b', b.put c = .ok b' ∧ b'.Fits ∧
      b'.scriptBuf = b.scriptBuf ++ [c] ∧ b'.scriptBufSize = b.scriptBufSize := by
  refine ⟨{ b with
    scriptBuf := b.scriptBuf ++ [c], scriptByteCount := b.scriptByteCount + 1 }, ?_, ?_, rfl, rfl⟩
  · unfold ScriptBuf.put
    rw [bufPut_ok h.room]
    rfl
  · have hlt := b.scriptBufSize.toNat_lt
    refine ⟨h.size, ?_, ?_⟩
    · show (b.scriptByteCount + 1).toNat = (b.scriptBuf ++ [c]).length
      rw [UInt32.toNat_add, h.count, List.length_append, UInt32.toNat_one, List.length_singleton]
      exact Nat.mod_eq_of_lt (by omega)
    · show (b.scriptBuf ++ [c]).length < b.scriptBufSize.toNat
      rw [List.length_append]
      exact hroom

/-- **A turn of the copy** adds the byte, its quote repeated, unless the
allocator refuses. -/
theorem copyByte_eq (a : Allocator) {b : ScriptBuf} (h : b.Fits) (c : CChar) :
    copyByte a b c = .error .fatal ∨
    ∃ b', copyByte a b c = .ok b' ∧ b'.Fits ∧ b'.scriptBuf = b.scriptBuf ++ escapeQuote c := by
  unfold copyByte escapeQuote
  rcases b.grow_eq a h with hgrow | ⟨b₁, hgrow, h₁, hbuf₁, hroom⟩
  · left
    rw [hgrow]
    rfl
  · right
    rw [← hbuf₁] at hroom
    rw [hgrow, ← hbuf₁]
    by_cases hc : c = 39
    · obtain ⟨b₂, hput₂, h₂, hbuf₂, hsize₂⟩ := b₁.put_eq 39 h₁ (by omega)
      obtain ⟨b₃, hput₃, h₃, hbuf₃, -⟩ := b₂.put_eq c h₂ (by
        rw [hbuf₂, hsize₂, List.length_append, List.length_singleton]
        omega)
      refine ⟨b₃, ?_, h₃, ?_⟩
      · show b₁.repeatQuote c >>= ScriptBuf.put c = .ok b₃
        rw [ScriptBuf.repeatQuote, if_pos hc, hput₂]
        exact hput₃
      · rw [if_pos hc, hbuf₃, hbuf₂, List.append_assoc]
        rfl
    · obtain ⟨b₂, hput₂, h₂, hbuf₂, -⟩ := b₁.put_eq c h₁ (by omega)
      refine ⟨b₂, ?_, h₂, ?_⟩
      · show b₁.repeatQuote c >>= ScriptBuf.put c = .ok b₂
        rw [ScriptBuf.repeatQuote, if_neg hc]
        exact hput₂
      · rw [if_neg hc, hbuf₂]

theorem foldlM_copyByte_eq (a : Allocator) (script : CString) {b : ScriptBuf} (h : b.Fits) :
    script.foldlM (copyByte a) b = .error .fatal ∨
    ∃ b', script.foldlM (copyByte a) b = .ok b' ∧ b'.Fits ∧
      b'.scriptBuf = b.scriptBuf ++ escapeQuotes script := by
  induction script generalizing b with
  | nil => exact .inr ⟨b, rfl, h, (List.append_nil _).symm⟩
  | cons c script ih =>
    rw [List.foldlM_cons]
    rcases copyByte_eq a h c with hbyte | ⟨b₁, hbyte, h₁, hbuf₁⟩
    · left
      rw [hbyte]
      rfl
    · rw [hbyte]
      rcases ih h₁ with hrest | ⟨b₂, hrest, h₂, hbuf₂⟩
      · exact .inl hrest
      · refine .inr ⟨b₂, hrest, h₂, ?_⟩
        rw [hbuf₂, hbuf₁, List.append_assoc]
        rfl

/-- **The copy is the script with its quotes repeated**, unless the
allocator refuses; it never leaves the buffer. -/
theorem copyScript_eq (a : Allocator) (script : CString) :
    copyScript a script = .error .fatal ∨ copyScript a script = .ok (escapeQuotes script) := by
  have hfits : ScriptBuf.Fits ⟨2048, 0, []⟩ :=
    ⟨⟨11, by decide, by decide, rfl⟩, rfl, by decide⟩
  unfold copyScript Allocator.MALLOC_FAIL
  split
  · rcases foldlM_copyByte_eq a script hfits with hcopy | ⟨b, hcopy, hb, hbuf⟩
    · left
      rw [hcopy]
      rfl
    · right
      rw [hcopy]
      show bufEnd b.scriptBufSize.toNat b.scriptBuf = _
      rw [bufEnd_ok hb.room, hbuf, List.nil_append]
  · exact .inl rfl

/-- `copyAndStore` is `DBIRScript`. -/
theorem copyAndStore_eq {a : Allocator} {sq : Answers} {db : Conn Tables} {name script : CString}
    {result : Conn Tables × PassFail} (h : copyAndStore a sq db name script = .ok result) :
    DBIRScript sq db name script = result := by
  unfold copyAndStore at h
  obtain ⟨scriptBuf, hcopy, h⟩ := bind_ok h
  rcases copyScript_eq a script with hfatal | hok
  · rw [hfatal] at hcopy
    cases hcopy
  · rw [hok] at hcopy
    cases hcopy
    cases h
    rfl

/-! ## The round trip -/

/-- The row of the name is the one stored last, if all statements
succeed. -/
theorem DBIRScript_answered (d : Tables) (name script : CString) :
    DBIRScript answered (.autocommit d) name script =
      (.autocommit (scripts.withRows
        (Lib.replace Script.scriptname d.scripts ⟨name, escapeQuotes script⟩) d), .PASS) := by
  have hcloses : Closes answered := ⟨rfl, rfl⟩
  have hrows : (deleted scripts answered d name).scripts =
      Lib.remove Script.scriptname d.scripts name := by
    have hdeleted := deleted_rows scripts answered d name
    split at hdeleted
    · exact hdeleted
    · rename_i hunread
      refine hdeleted.trans (Lib.remove_of_absent ?_).symm
      -- a script that is there is read
      cases hrow : Lib.lookup Script.scriptname d.scripts name with
      | none => exact hrow
      | some row =>
        refine absurd ⟨rfl, ?_⟩ hunread
        show ((Lib.lookup Script.scriptname d.scripts name).bind scripts.valueCol).isSome = true
        rw [hrow]
        rfl
  have hkeep : ¬ (answered.beginTx.prepare = false ∨
      (Reads scripts answered d name ∧ answered.delete.ok 1 = false)) := by
    rintro (h | h)
    · cases h
    · cases h.2
  have hresult := replaceRow_committed scripts 2 answered d name ⟨name, escapeQuotes script⟩
  simp only [if_neg hkeep] at hresult
  obtain ⟨hcommitted, hpass⟩ := hresult
  have hnew : scripts.withRows (scripts.rows (deleted scripts answered d name) ++
      [⟨name, escapeQuotes script⟩]) (deleted scripts answered d name) =
        scripts.withRows (Lib.replace Script.scriptname d.scripts ⟨name, escapeQuotes script⟩) d := by
    rw [deleted_frame]
    show scripts.withRows ((deleted scripts answered d name).scripts ++ _) d = _
    rw [hrows]
    rfl
  have hends : answered.beginTx.prepare = true → answered.beginTx.step = true → Closes answered :=
    fun _ _ => hcloses
  have hworking := replaceRow_working scripts 2 hends d name ⟨name, escapeQuotes script⟩
  unfold DBIRScript
  rcases hrun : replaceRow scripts 2 answered (.autocommit d) name ⟨name, escapeQuotes script⟩ with
    ⟨⟨committed, working⟩, res⟩
  rw [hrun] at hcommitted hpass hworking
  cases hworking
  cases hpass
  cases hcommitted
  rw [← hnew]
  rfl

/-- What is fetched under a name, if all statements succeed. -/
theorem DBFetchScript_answered (d : Tables) (name : CString) :
    DBFetchScript answered (.autocommit d) name =
      (.autocommit d, (Lib.lookup Script.scriptname d.scripts name).map Script.scriptcode) := by
  unfold DBFetchScript
  rw [readRow_autocommit scripts rfl rfl (fun _ => ⟨rfl, rfl⟩)]
  show (_, (Lib.lookup Script.scriptname d.scripts name).bind scripts.valueCol) = _
  cases Lib.lookup Script.scriptname d.scripts name with
  | none => rfl
  | some row => rfl

/-- What a script is fetched as behind `DBIRScript`. -/
theorem fetched_stored (d : Tables) (name script : CString) :
    ∃ d', DBIRScript answered (.autocommit d) name script = (.autocommit d', .PASS) ∧
      DBFetchScript answered (.autocommit d') name = (.autocommit d', some (escapeQuotes script)) := by
  refine ⟨_, DBIRScript_answered d name script, ?_⟩
  rw [DBFetchScript_answered]
  show (_, (Lib.lookup Script.scriptname (Lib.replace Script.scriptname d.scripts _) name).map _) = _
  rw [Lib.lookup_replace, if_pos rfl]
  rfl

/-- The copy is the script itself exactly when there is nothing to
repeat. -/
theorem escapeQuotes_eq_self {script : CString} : escapeQuotes script = script ↔ 39 ∉ script := by
  have hgrows : ∀ s : CString, s.length ≤ (escapeQuotes s).length := by
    intro s
    induction s with
    | nil => exact Nat.le_refl _
    | cons c s ih =>
      have hc : 1 ≤ (escapeQuote c).length := by
        unfold escapeQuote
        split
        · exact Nat.le_succ 1
        · exact Nat.le_refl 1
      show s.length + 1 ≤ (escapeQuote c ++ escapeQuotes s).length
      rw [List.length_append]
      omega
  induction script with
  | nil => exact iff_of_true rfl List.not_mem_nil
  | cons c script ih =>
    show escapeQuote c ++ escapeQuotes script = c :: script ↔ _
    by_cases hc : c = 39
    · refine iff_of_false (fun heq => ?_) (fun hq => hq (hc ▸ List.mem_cons_self))
      have hlen := congrArg List.length heq
      rw [escapeQuote, if_pos hc, List.length_append] at hlen
      have hle := hgrows script
      simp only [List.length_cons, List.length_nil] at hlen
      omega
    · rw [escapeQuote, if_neg hc, List.singleton_append, List.cons_inj_right, List.mem_cons, not_or]
      exact ih.trans ⟨fun h => ⟨Ne.symm hc, h⟩, fun h => h.2⟩

/-- A script that has been stored comes back as it was, and storing what
came back leaves it. -/
def ComesBack (a : Allocator) (db : Conn Tables) (name script : CString) : Prop :=
  (DBFetchScript answered db name).2 = some script ∧
  ∀ fetched db', (DBFetchScript answered db name).2 = some fetched →
    copyAndStore a answered (DBFetchScript answered db name).1 name fetched = .ok (db', .PASS) →
    (DBFetchScript answered db' name).2 = some fetched

/-- **The round trip of a script**: behind a `DBIRScript` that has stored
it, it comes back exactly when it has no single quote. -/
theorem comesBack_iff {a : Allocator} {d : Tables} {name script : CString} {db : Conn Tables}
    (h : copyAndStore a answered (.autocommit d) name script = .ok (db, .PASS)) :
    ComesBack a db name script ↔ 39 ∉ script := by
  obtain ⟨d', hstore, hfetch⟩ := fetched_stored d name script
  rw [copyAndStore_eq h] at hstore
  cases hstore
  unfold ComesBack
  rw [hfetch, Option.some_inj, escapeQuotes_eq_self]
  refine ⟨fun hback => hback.1, fun hq => ⟨hq, ?_⟩⟩
  intro fetched db' hf hagain
  cases hf
  rw [escapeQuotes_eq_self.mpr hq] at hagain ⊢
  obtain ⟨d'', hstore', hfetch'⟩ := fetched_stored d' name script
  rw [copyAndStore_eq hagain] at hstore'
  cases hstore'
  rw [hfetch', escapeQuotes_eq_self.mpr hq]

/-- An allocator that refuses nothing else. -/
def sampleAllocator : Allocator := ⟨fun size => size != 0, rfl⟩

theorem plainScript_comesBack : ∃ db,
    copyAndStore sampleAllocator answered (.autocommit emptyTables) (cstr "s") (cstr "x") =
      .ok (db, .PASS) ∧ ComesBack sampleAllocator db (cstr "s") (cstr "x") := by
  have hstore : copyAndStore sampleAllocator answered (.autocommit emptyTables) (cstr "s")
      (cstr "x") = .ok (.autocommit ⟨[], [], [], [⟨cstr "s", cstr "x"⟩]⟩, .PASS) := rfl
  exact ⟨_, hstore, (comesBack_iff hstore).mpr (by decide)⟩

/-- A script that is a single quote comes back as two. -/
theorem quotedScript_altered : ¬ ∀ a d name script db,
    copyAndStore a answered (.autocommit d) name script = .ok (db, .PASS) →
      ComesBack a db name script := by
  intro h
  have hback := (h sampleAllocator emptyTables (cstr "s") [39] _ rfl).1
  exact absurd hback (by decide)

end XplEvent.Store
