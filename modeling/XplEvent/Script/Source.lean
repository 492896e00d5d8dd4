import XplEvent.Script.Realize
import XplEvent.Script.Spelling

/-!
# From the text of a script to what it does

`ParserParseHCL` on a string, with the lexer in it, and the interpreter on
the code it leaves. A script does what the structural evaluation of its
tree says (`runs_of_laidOut`), whatever its layout and whichever of the
trees and lines a generated parser goes by: the grammar is unambiguous,
and a line number is only ever part of a fail reason.

A comment ends with a newline. One at the end of a script without it is
not a comment, and the script is refused (`ParserParseText_openComment`).
-/

namespace XplEvent.Script

/-! ## Parsing a string -/

/-- `ParserParseHCL` on a text, or on the contents of a file. -/
def ParserParseText {P : Type} (L : Lemon P) (text : CString) (this : ParseCtrl) :
    Except Fault (PassFail × ParseCtrl) :=
  ParserParseHCL L (.script (yylex 1 text)) this

/-- The characters of a token are in the text. -/
theorem Spells.mem_text {n : Int} {text : CString} {toks : List LexToken} (h : Spells n text toks)
    {tok : LexToken} (htok : tok ∈ toks) {c : CChar} (hc : c ∈ tok.1.yytext) : c ∈ text := by
  induction h with
  | nil => exact absurd htok List.not_mem_nil
  | blank _ _ ih => exact List.mem_cons_of_mem _ (ih htok)
  | comment _ _ ih => exact List.mem_append_right _ (List.mem_cons_of_mem _ (ih htok))
  | token _ _ _ ih =>
    rcases List.mem_cons.mp htok with rfl | htok
    · exact List.mem_append_left _ hc
    · exact List.mem_append_right _ (ih htok)

/-- In a text without NUL no token holds one. -/
theorem Spells.no_nul {n : Int} {text : CString} {toks : List LexToken} (h : Spells n text toks)
    (hnul : 0 ∉ text) : ∀ t ∈ names toks, 0 ∉ t.yytext := by
  intro t ht hmem
  obtain ⟨tok, htok, rfl⟩ := List.mem_map.mp ht
  exact hnul (h.mem_text htok hmem)

/-! ## What a script does -/

/-- A statement list and a bad character are the beginning of no script. -/
theorem StatementList.not_viable (l : StatementList) (c : CChar) (ts : List Token) :
    ¬ Viable (l.yield ++ .badchar c :: ts) := by
  rintro ⟨us, l' | d, hyield⟩
  · refine l'.badchar_not_mem c ?_
    rw [Start.yield] at hyield
    rw [hyield, List.append_assoc]
    exact List.mem_append_right _ List.mem_cons_self
  · have hlen := congrArg List.length hyield
    have hpos : 0 < l.yield.length := Nat.lt_of_le_of_lt (Nat.zero_le _) l.more_lt
    simp only [Start.yield, List.length_append, List.length_cons, List.length_nil] at hlen
    omega

theorem parseLoop_append {P : Type} {L : Lemon P} (toks toks' : List LexToken) (s : P × ParseCtrl) :
    parseLoop L (toks ++ toks') s = parseLoop L toks s >>= parseLoop L toks' := by
  induction toks generalizing s with
  | nil => rfl
  | cons tok toks ih =>
    obtain ⟨t, n⟩ := tok
    obtain ⟨p, pc⟩ := s
    rw [List.cons_append, parseLoop, parseLoop]
    split
    · rename_i hsome
      -- the loop does not look at another token
      cases toks' with
      | nil => rfl
      | cons tok toks' => rw [ok_bind, parseLoop, if_pos hsome]
    · cases yyTokenVal t.yytext with
      | error e => rfl
      | ok text =>
        cases hparse : L.Parse p (some t) (pc.atLine (toShort n)) with
        | error e =>
          simp only [ok_bind]
          rfl
        | ok s =>
          simp only [ok_bind]
          exact ih s

theorem hash_spelled : (Token.badchar 35).Spelled := by decide +kernel

/-- The tokens of a text with an open comment at its end. -/
theorem yylex_openComment {text body : CString} {toks : List LexToken} (htext : LaidOut 1 text toks)
    (hbad : ∀ tok ∈ toks, ∀ c, tok.1 ≠ Token.badchar c) (hspelled : ∀ tok ∈ toks, tok.1.Spelled)
    (hbody : LF ∉ body) : yylex 1 (text ++ 35 :: body) = toks ++
      ((.badchar 35, 1 + (text.count LF : Nat)) : LexToken) ::
        yylex (1 + (text.count LF : Nat)) body := by
  refine (htext.append (fun tok htok c hc => ?_) ?_).yylex_eq
  · cases hc
    exact (hspelled tok htok).not_runsOn_hash (hbad tok htok)
  · exact .token hash_spelled (apart_hash hbody) (spells_yylex _ body)

/-- **A last comment without its newline is no comment**: the script is
refused, with the line the comment is on. -/
theorem ParserParseText_openComment {P : Type} {L : Lemon P} (h : L.Documented)
    {text body : CString} {toks : List LexToken} {l : StatementList} (htext : LaidOut 1 text toks)
    (htoks : names toks = l.yield) (hempty : emptyLiteral ∉ l.yield) (hbody : LF ∉ body)
    (hnul : 0 ∉ text ++ 35 :: body) :
    ∃ pc, ParserParseText L (text ++ 35 :: body) .zero = .ok (.FAIL, pc) ∧
      pc.failReason = some (.syntaxError (toShort (1 + (text.count LF : Nat)))) := by
  have hbad : ∀ tok ∈ toks, ∀ c, tok.1 ≠ Token.badchar c := by
    intro tok htok c hc
    refine l.badchar_not_mem c ?_
    rw [← htoks, ← hc]
    exact List.mem_map_of_mem htok
  have hd : Derivable (names toks) := ⟨.statementlist l, htoks.symm⟩
  have hyylex := yylex_openComment htext hbad htext.spelled hbody
  have hno := (spells_yylex 1 _).no_nul hnul
  rw [hyylex, names_split_snoc] at hno
  have hclean : Clean (names toks ++ [.badchar 35]) := by
    refine .of_not_mem (fun hmem => ?_) fun t ht => hno t (List.mem_append_left _ ht)
    rcases List.mem_append.mp hmem with hmem | hmem
    · exact hempty (htoks ▸ hmem)
    · cases List.mem_singleton.mp hmem
  obtain ⟨p, pc, hloop, hfed, hnone⟩ :=
    parseLoop_viable h toks .nil rfl hd.viable hclean.of_append
  obtain ⟨⟨p', pc'⟩, hparse⟩ := h.returns (n := 1 + (text.count LF : Nat)) hfed hd.viable hclean
  have hnot : ¬ Viable (names toks ++ [.badchar 35]) := htoks ▸ l.not_viable 35 []
  have hreason := h.reject hfed hd.viable hnot hparse
  refine ⟨pc', ?_, hreason⟩
  have hrest : ∀ toks, parseLoop L toks (p', pc') = .ok (p', pc') := by
    rintro (_ | ⟨tok, toks⟩)
    · rfl
    · rw [parseLoop, hreason]
      rfl
  rw [ParserParseText, hyylex]
  simp only [ParserParseHCL, parseLoop_append, hloop, ok_bind,
    parseLoop_cons hnone (hclean.yyTokenVal_eq hd.viable), hparse, hrest, hreason,
    Option.isNone_some, Bool.false_eq_true, if_false]
  rfl

/-- `$a{b} = 1;` and an open comment. -/
theorem openComment_sampleAssignment : ∃ pc,
    ParserParseText Lemon.deferred
      (spaced sampleAssignment.yield ++ 35 :: cstr "end") .zero = .ok (.FAIL, pc) ∧
      pc.failReason =
        some (.syntaxError (toShort (1 + ((spaced sampleAssignment.yield).count LF : Nat)))) :=
  ParserParseText_openComment Lemon.deferred_documented
    (laidOut_spaced 1 (by decide +kernel)) (l := .initial (.assignment ⟨⟨cstr "a", by decide⟩,
      ⟨cstr "b", by decide⟩⟩ (.rvalue (.intlit (cstr "1"))) 1)) rfl (by decide) (by decide)
    (by decide +kernel)

end XplEvent.Script
