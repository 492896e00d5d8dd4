import XplEvent.Script.Builtins
import XplEvent.Script.Parse

/-!
# What the code of a text does

`ParserParseHCL` leaves the code of a tree of its text, with lines of the
parser's own. The grammar is unambiguous and a line number is only ever
part of a fail reason, so the code of a script does what the script means
(`ParserParseHCL_realizes`), and the code that is left of a script that is
cut off does what there is of it means (`ParserParseHCL_cutOff`).
-/

namespace XplEvent.Script

/-! ## Code and meaning -/

/-- Run with the built-in functions on any store that has not stopped, the
code ends as `eval` does, but for the line in a fail reason. -/
def Does {D σ : Type} (env : Env D σ) (mode : Mode) (code : List Pcode)
    (eval : Store σ → Store σ) : Prop :=
  ∀ st : Store σ, st.stopped = false → ∀ fuel, code.length < fuel → ∃ st',
    ParserExecPcode env mode (ParserExecFunction env mode) code fuel st =
      some (if st'.failReason.isSome then .FAIL else .PASS, st') ∧ st'.unlined = (eval st).unlined

/-- The code does what `l` means, in any environment and mode. -/
def Realizes (code : List Pcode) (l : StatementList) : Prop :=
  ∀ {D σ : Type} (env : Env D σ) (mode : Mode), Does env mode code (l.eval env mode (builtins env mode))

section

variable {D σ : Type} {env : Env D σ} {mode : Mode} {code code' : List Pcode}
  {eval eval' : Store σ → Store σ}

/-- What code does, it does with any lines. -/
theorem Does.of_lines (hcode : code.map Pcode.unlined = code'.map Pcode.unlined)
    (hexec : ∀ st, st.stopped = false → ∀ fuel, code'.length < fuel →
      ParserExecPcode env mode (ParserExecFunction env mode) code' fuel st =
        some (if (eval st).failReason.isSome then .FAIL else .PASS, eval st)) :
    Does env mode code eval := by
  intro st hrun fuel hfuel
  have hlength : code'.length = code.length := by
    rw [← List.length_map Pcode.unlined, ← hcode, List.length_map]
  have hlines : (ParserExecPcode env mode (ParserExecFunction env mode) code fuel st).map
      resultUnlined = _ := ParserExecPcode_lines hcode fuel st
  rw [hexec st hrun fuel (hlength ▸ hfuel)] at hlines
  obtain ⟨⟨res, st'⟩, hrun', hresult⟩ := Option.map_eq_some_iff.mp hlines
  obtain ⟨hres, hst⟩ := Prod.mk.inj hresult
  refine ⟨st', ?_, hst⟩
  rw [hrun', Store.failed_of_unlined hst]
  exact congrArg some (Prod.ext hres rfl)

theorem Does.congr (h : Does env mode code eval)
    (heval : ∀ st, (eval st).unlined = (eval' st).unlined) : Does env mode code eval' := by
  intro st hrun fuel hfuel
  obtain ⟨st', hexec, hst⟩ := h st hrun fuel hfuel
  exact ⟨st', hexec, hst.trans (heval st)⟩

/-- A run has one end, whatever the fuel. -/
theorem Does.result (h : Does env mode code eval) {st st' : Store σ} (hrun : st.stopped = false)
    {fuel : Nat} {res : PassFail}
    (hexec : ParserExecPcode env mode (ParserExecFunction env mode) code fuel st = some (res, st')) :
    res = (if st'.failReason.isSome then .FAIL else .PASS) ∧ st'.unlined = (eval st).unlined := by
  obtain ⟨st'', hlong, hst⟩ := h st hrun _ (Nat.lt_succ_of_le (Nat.le_max_left code.length fuel))
  rw [ParserExecPcode_mono hexec (Nat.le_succ_of_le (Nat.le_max_right code.length fuel))] at hlong
  cases hlong
  exact ⟨rfl, hst⟩

/-- A run that the process survives passes if there is no fail reason. -/
theorem ParserExecPcode_passes {func : Func σ} {fuel : Nat} {st st' : Store σ} {res : PassFail}
    (h : ParserExecPcode env mode func code fuel st = some (res, st')) (hfault : st'.fault = none)
    (hreason : st'.failReason = none) : res = .PASS := by
  unfold ParserExecPcode at h
  split at h
  · cases h
    cases hfault
  · obtain ⟨ex, -, hex⟩ := Option.map_eq_some_iff.mp h
    cases hex
    rw [hreason]
    rfl

end

/-! ## No bad character in a statement -/

mutual

theorem Statement.badchar_not_mem (s : Statement) (c : CChar) : .badchar c ∉ s.yield := by
  have hinner : ∀ us : List Token, (∀ t ∈ us, t.isInner = true) → .badchar c ∉ us :=
    fun us hus hmem => by cases hus _ hmem
  cases s with
  | function f args n =>
    have hf : Token.badchar c ≠ f.token := by cases f <;> exact Token.noConfusion
    simp only [Statement.yield, List.mem_append, List.mem_cons, List.not_mem_nil, hf, reduceCtorEq,
      hinner _ args.yield_inner, or_self, not_false_eq_true]
  | assignment lhs rhs n =>
    have hlhs := hinner _ (Operand.hash lhs).yield_inner
    simp only [Operand.yield] at hlhs
    simp only [Statement.yield, List.mem_append, List.mem_cons, List.not_mem_nil, reduceCtorEq,
      hlhs, hinner _ rhs.yield_inner, or_self, not_false_eq_true]
  | ifconst t block n =>
    simp only [Statement.yield, List.mem_append, List.mem_cons, List.not_mem_nil, reduceCtorEq,
      hinner _ t.yield_inner, block.badchar_not_mem, or_self, not_false_eq_true]
  | ifelseconst t block elseblock n =>
    simp only [Statement.yield, List.mem_append, List.mem_cons, List.not_mem_nil, reduceCtorEq,
      hinner _ t.yield_inner, block.badchar_not_mem, elseblock.badchar_not_mem, or_self,
      not_false_eq_true]
termination_by structural s

theorem StatementList.badchar_not_mem (l : StatementList) (c : CChar) : .badchar c ∉ l.yield := by
  cases l with
  | initial s => exact s.badchar_not_mem c
  | successive l s =>
    simp only [StatementList.yield, List.mem_append, l.badchar_not_mem, s.badchar_not_mem, or_self,
      not_false_eq_true]
termination_by structural l

end

/-- The process is alive behind a script that is cut off if every test
without a jump lets its block run, and no call lacks its hash. -/
theorem cut_fault_iff {D σ : Type} (env : Env D σ) (mode : Mode) (c : Cut) {st : Store σ}
    (hrun : st.stopped = false) : (c.eval env mode (builtins env mode) st).fault = none ↔
      c.GoesOn env mode (builtins env mode) (fun f args st => ¬ MissingHash env f args st) st :=
  c.goesOn_iff (watched_fault builtins_fault) (fun _ _ _ _ hst => call_fault_iff hst) hrun

/-! ## What the parser leaves -/

section

variable {P : Type} {L : Lemon P} {toks : List LexToken}

/-- **The code of a script**, whichever tree a parser finds for it. -/
theorem ParserParseHCL_realizes (h : L.Documented) {l : StatementList} (hyield : l.yield = names toks)
    (hc : Clean (names toks)) :
    ∃ pc, ParserParseHCL L (.script toks) .zero = .ok (.PASS, pc) ∧ pc.failReason = none ∧
      pc.pcodeHeader.code.length = l.size ∧ Realizes pc.pcodeHeader.code l := by
  obtain ⟨pc, hparse, hnone, tree, done, hyield', hreduce, hheader⟩ :=
    ParserParseHCL_derivable h ⟨.statementlist l, hyield⟩ hc
  cases tree with
  | badchar c =>
    refine absurd ?_ (l.badchar_not_mem c)
    rw [hyield, ← hyield']
    exact List.mem_singleton_self _
  | statementlist l' =>
    have hsame : l'.unlined = l.unlined := StatementList.unlined_of_yield (hyield'.trans hyield.symm)
    have hcode : pc.pcodeHeader.code.map Pcode.unlined = (l'.layout 0 0).map Pcode.unlined := by
      rw [← StatementList.code_of_reduce hreduce]
      exact congrArg PcodeHeader.code hheader
    have hlength : pc.pcodeHeader.code.length = l.size := by
      rw [← List.length_map Pcode.unlined, hcode, List.length_map, l'.layout_length,
        ← l'.size_unlined, hsame, l.size_unlined]
    refine ⟨pc, hparse, hnone, hlength, fun env mode => ?_⟩
    have hdoes : Does env mode pc.pcodeHeader.code (l'.eval env mode (builtins env mode)) := by
      refine .of_lines hcode fun st hrun fuel hfuel => ?_
      rw [l'.layout_length] at hfuel
      exact l'.exec_layout ParserExecFunction_implements hrun hfuel
    exact hdoes.congr fun st => by rw [l'.eval_unlined, hsame, ← l.eval_unlined]

/-- **The code that is left of a script that is cut off.** If it has none,
running it fails an assertion. -/
theorem ParserParseHCL_cutOff (h : L.Documented) {c : Cut} (hyield : c.yield = names toks)
    (hv : Viable (names toks)) (hd : ¬ Derivable (names toks)) (hc : Clean (names toks)) :
    ∃ pc, ParserParseHCL L (.script toks) .zero = .ok (.PASS, pc) ∧ pc.failReason.isSome = true ∧
      pc.pcodeHeader.code.length = c.size ∧
      (c.size ≠ 0 → ∀ {D σ : Type} (env : Env D σ) (mode : Mode),
        Does env mode pc.pcodeHeader.code (c.eval env mode (builtins env mode))) := by
  obtain ⟨pc, hparse, hsome, cut, done, hyield', hreduce, hheader⟩ :=
    ParserParseHCL_truncated h hv hd hc
  have hsame : cut.unlined = c.unlined := Cut.unlined_of_yield (hyield'.trans hyield.symm)
  have hsize : cut.size = c.size := by rw [← cut.size_unlined, hsame, c.size_unlined]
  obtain ⟨pc', hreduce', hlayout⟩ :=
    cut.reduce_eq_layout .zero rfl (by rw [hyield']; exact hc.not_mem hv)
  rw [hreduce] at hreduce'
  cases hreduce'
  have hcode : pc.pcodeHeader.code.map Pcode.unlined = (cut.layout 0 0).map Pcode.unlined := by
    have hdone : done.pcodeHeader.code = cut.layout 0 0 := hlayout
    rw [← hdone]
    exact congrArg PcodeHeader.code hheader
  have hlength : pc.pcodeHeader.code.length = c.size := by
    rw [← List.length_map Pcode.unlined, hcode, List.length_map, cut.layout_length, hsize]
  refine ⟨pc, hparse, hsome, hlength, fun hne _ _ env mode => ?_⟩
  have hdoes : Does env mode pc.pcodeHeader.code (cut.eval env mode (builtins env mode)) := by
    refine .of_lines hcode fun st hrun fuel hfuel => ?_
    rw [cut.layout_length] at hfuel
    exact cut.exec_layout ParserExecFunction_implements (hsize ▸ hne) hrun hfuel
  exact hdoes.congr fun st => by rw [cut.eval_unlined, hsame, ← c.eval_unlined]

/-- One bad character is a script, without any code. -/
theorem ParserParseHCL_badchar (h : L.Documented) {c : CChar} (hyield : names toks = [.badchar c])
    (hc : Clean (names toks)) :
    ∃ pc, ParserParseHCL L (.script toks) .zero = .ok (.PASS, pc) ∧ pc.failReason = none ∧
      pc.pcodeHeader.code = [] := by
  obtain ⟨pc, hparse, hnone, tree, done, hyield', hreduce, hheader⟩ :=
    ParserParseHCL_derivable h ⟨.badchar c, hyield.symm⟩ hc
  cases tree with
  | badchar d =>
    cases hreduce
    exact ⟨pc, hparse, hnone, List.map_eq_nil_iff.mp (congrArg PcodeHeader.code hheader)⟩
  | statementlist l =>
    refine absurd ?_ (l.badchar_not_mem c)
    have htree : l.yield = [.badchar c] := hyield'.trans hyield
    rw [htree]
    exact List.mem_singleton_self _

end

end XplEvent.Script
