import XplEvent.Lib.Triple
import XplEvent.Script.Eval
import XplEvent.Script.Hashes

/-!
# Reasoning about scripts

Rules of pre- and postconditions for the statements of a script, over the
structural evaluation. What a condition speaks of is not the symbol table
but the values the script can read in it: `Store.At` says that the table
holds the values `vars` and that the outside is in state `w`. An
assignment is a change of one value, and a test asks for one.
-/

namespace XplEvent.Script

open Lib

/-- The values of the variables, by hash and key. -/
abbrev Vars := CString → CString → Option CString

/-- One value changed. -/
def Vars.set (vars : Vars) (h : Hash) (value : CString) : Vars := fun hashName key =>
  if hashName = h.scalar.text ∧ key = h.key.text then some value else vars hashName key

def Vars.get (vars : Vars) (h : Hash) : Option CString := vars h.scalar.text h.key.text

theorem Vars.set_of_ne {vars : Vars} {h : Hash} {hashName : CString} (hne : hashName ≠ h.scalar.text)
    (value key : CString) : vars.set h value hashName key = vars hashName key :=
  if_neg fun heq => hne heq.1

@[simp] theorem Vars.get_set (vars : Vars) (h : Hash) (value : CString) :
    (vars.set h value).get h = some value := if_pos ⟨rfl, rfl⟩

section

variable {D σ : Type} {env : Env D σ} {mode : Mode} {builtin : Builtin σ}

variable (env) in
/-- The symbol table holds `vars`, and the outside is in state `w`. -/
structure Store.At (vars : Vars) (w : σ) (st : Store σ) : Prop where
  hashed : Hashed env.UtilHash st.steHead
  value : ∀ hashName key, hashGetValue env.UtilHash st.steHead hashName key = vars hashName key
  world : st.world = w

/-- A hash that is kept in memory. -/
def Hash.InMemory (h : Hash) : Prop := h.scalar.text ≠ cstr "nvstate"

instance (h : Hash) : Decidable h.InMemory := inferInstanceAs (Decidable (_ ≠ _))

/-- A value that has been added is read back, and no other value has
changed. -/
theorem hashGetValue_add {UtilHash : CString → UInt32} {steHead : List ParseHashSTE}
    (h : Hashed UtilHash steHead) (hashName key value hashName' key' : CString) :
    hashGetValue UtilHash (hashAddKeyValue UtilHash steHead hashName key value) hashName' key' =
      if hashName' = hashName ∧ key' = key then some value
      else hashGetValue UtilHash steHead hashName' key' := by
  rw [hashGetValue_eq (h.add hashName key value), keyList_add h, hashGetValue_eq h]
  by_cases hname : hashName' = hashName
  · subst hname
    rw [if_pos rfl, lookup_put]
    change Option.map _ (if key' = key then _ else _) = _
    by_cases hkey : key' = key
    · rw [if_pos hkey, if_pos ⟨rfl, hkey⟩]
      rfl
    · rw [if_neg hkey, if_neg fun h => hkey h.2]
  · rw [if_neg hname, if_neg fun h => hname h.1]

theorem Store.At.get {vars : Vars} {w : σ} {st : Store σ} (hst : st.At env vars w) {h : Hash}
    (hmem : h.InMemory) : (Operand.hash h).eval env mode st = (vars.get h, st) := by
  have hdb : ¬ (mode.DB = true ∧ h.scalar.text = cstr "nvstate") := fun hdb => hmem hdb.2
  rw [Operand.eval, ParserHashGetValue, if_neg hdb, hst.value]
  rfl

/-! ## Tests -/

theorem exists_triple {h : Hash} (hmem : h.InMemory) (vars : Vars) (w : σ) (lineNo : Int) :
    TestTriple Store.stopped (Store.At env vars w) ((Test.exists_ h lineNo).eval env mode)
      fun answer st => answer = (vars.get h).isSome ∧ st.At env vars w := by
  intro st hrun hst
  rw [Test.eval, hst.get hmem]
  exact ⟨hrun, rfl, hst⟩

/-- `h eq "text"`, where `h` has a value. -/
theorem eq_triple {h : Hash} (hmem : h.InMemory) {vars : Vars} {value : CString}
    (hvalue : vars.get h = some value) (w : σ) (r : Rvalue) (lineNo : Int) :
    TestTriple Store.stopped (Store.At env vars w)
      ((Test.compare (.hash h) .OPRT_STREQUALITY (.rvalue r) lineNo).eval env mode)
      fun answer st => answer = decide (value = r.text) ∧ st.At env vars w := by
  intro st hrun hst
  have hrejects : ∀ text, Testop.OPRT_STREQUALITY.rejects env text = false :=
    fun _ => decide_eq_false fun h => h.1 rfl
  rw [Test.eval, hst.get hmem, hvalue]
  simp only [hrejects, Bool.false_eq_true, if_false, Operand.eval, Testop.holds]
  exact ⟨hrun, decide_eq_decide.mpr eq_comm, hst⟩

/-! ## Statements -/

/-- An assignment of a variable that has a value. -/
theorem assign_triple {lhs rhs : Hash} (hlhs : lhs.InMemory) (hrhs : rhs.InMemory) {vars : Vars}
    {value : CString} (hvalue : vars.get rhs = some value) (w : σ) (lineNo : Int) :
    Triple Store.stopped (Store.At env vars w)
      ((Statement.assignment lhs (.hash rhs) lineNo).eval env mode builtin)
      (Store.At env (vars.set lhs value) w) := by
  intro st hrun hst
  have hdb : ¬ (mode.DB = true ∧ lhs.scalar.text = cstr "nvstate") := fun hdb => hlhs hdb.2
  rw [Statement.eval, assign, hst.get hrhs, hvalue]
  simp only [ParserHashAddKeyValue, hdb, if_false]
  refine ⟨hrun, hst.hashed.add _ _ _, fun hashName key => ?_, hst.world⟩
  rw [hashGetValue_add hst.hashed, hst.value]
  rfl

theorem Statement.eval_ifconst (t : Test) (block : StatementList) (lineNo : Int) :
    (Statement.ifconst t block lineNo).eval env mode builtin =
      branch Store.stopped (t.eval env mode) (block.eval env mode builtin) id := by
  funext st
  rw [Statement.eval, branch]
  rcases t.eval env mode st with ⟨enter, st'⟩
  cases hstop : st'.stopped <;> cases enter <;> simp only [hstop] <;> rfl

/-- An `if` whose test is decided by the values. -/
theorem ifconst_triple {t : Test} {answer : Bool} {vars vars' : Vars} {w : σ}
    (ht : TestTriple Store.stopped (Store.At env vars w) (t.eval env mode)
      fun b st => b = answer ∧ st.At env vars w)
    {block : StatementList} (hblock : answer = true → Triple Store.stopped (Store.At env vars w)
      (block.eval env mode builtin) (Store.At env vars' w))
    (hskip : answer = false → vars' = vars) (lineNo : Int) :
    Triple Store.stopped (Store.At env vars w)
      ((Statement.ifconst t block lineNo).eval env mode builtin) (Store.At env vars' w) := by
  rw [Statement.eval_ifconst]
  refine Triple.branch ht ?_ ?_
  · intro st hrun ⟨hanswer, hst⟩
    exact hblock hanswer.symm st hrun hst
  · intro st hrun ⟨hanswer, hst⟩
    rw [hskip hanswer.symm]
    exact ⟨hrun, hst⟩

theorem initial_triple {s : Statement} {P Q : Store σ → Prop}
    (h : Triple Store.stopped P (s.eval env mode builtin) Q) :
    Triple Store.stopped P ((StatementList.initial s).eval env mode builtin) Q := h

theorem successive_triple {l : StatementList} {s : Statement} {P Q R : Store σ → Prop}
    (hl : Triple Store.stopped P (l.eval env mode builtin) Q)
    (hs : Triple Store.stopped Q (s.eval env mode builtin) R) :
    Triple Store.stopped P ((StatementList.successive l s).eval env mode builtin) R :=
  hl.andThen hs

end

end XplEvent.Script
