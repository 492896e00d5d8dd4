import XplEvent.Script.CutCode
import XplEvent.Script.Literals

/-!
# `ParserParseHCL` over a Lemon parser

The generated parser is not part of the repository, so it is a parameter:
a state and the function `Parse`. `Documented` lists what the manual of
the generator and the rules of `grammar.y` promise of it, with a stack as
deep as the script needs: a syntax error is reported on the first token, or
on the end of input, that cannot continue a derivation and on no other; the
actions that have run when the input ends are those of a derivation tree,
or of the rules that are complete where the script is cut off, with
whatever lines; and a call returns unless the action of an empty string
literal is due.

The result of `ParserParseHCL` is computed from a flag that is read
before the end-of-input call and not after it, so a script that is cut
off passes with its fail reason set. `parsesFaithfully_iff` is the exact
condition.
-/

namespace XplEvent.Script

/-- A parser `lemon` has generated from `grammar.y`: `ParseAlloc` and
`Parse`, which is given a token or, as token 0, the end of input. -/
structure Lemon (P : Type) where
  ParseAlloc : P
  Parse : P → Option Token → ParseCtrl → Except Fault (P × ParseCtrl)

/-- A token with the line the lexer found it on. -/
abbrev LexToken := Token × Int

/-- What the lexer is given: the tokens of a text, or a file `fopen`
cannot open. -/
inductive ScriptInput
  | script (toks : List LexToken)
  | missing (file strerror : CString)

section

variable {P : Type} (L : Lemon P)

/-- The token loop: it stops at the first token after a fail reason. -/
def parseLoop : List LexToken → P × ParseCtrl → Except Fault (P × ParseCtrl)
  | [], s => .ok s
  | (t, n) :: rest, (p, pc) =>
    if pc.failReason.isSome then .ok (p, pc)
    else do
      -- the copy of the text is the text, or overruns
      let _ ← yyTokenVal t.yytext
      parseLoop rest (← L.Parse p (some t) (pc.atLine (toShort n)))

/-- `ParserParseHCL`. -/
def ParserParseHCL (input : ScriptInput) (this : ParseCtrl) : Except Fault (PassFail × ParseCtrl) :=
  match input with
  | .missing file strerror => .ok (.FAIL, { this with failReason := some (.cantOpen file strerror) })
  | .script toks => do
    let (p, this) ← parseLoop L toks (L.ParseAlloc, this)
    if this.failReason.isNone then
      -- the result is set without another look at the fail reason
      let (_, this) ← L.Parse p none this
      return (.PASS, this)
    else return (.FAIL, this)

end

/-! ## Viable prefixes -/

theorem Derivable.viable {ts : List Token} (h : Derivable ts) : Viable ts :=
  ⟨[], by rwa [List.append_nil]⟩

theorem Viable.of_append {ts us : List Token} (h : Viable (ts ++ us)) : Viable ts := by
  obtain ⟨vs, hvs⟩ := h
  exact ⟨us ++ vs, by rwa [← List.append_assoc]⟩

/-- The process survives the parse. -/
structure Clean (ts : List Token) : Prop where
  /-- The parser never takes in an empty string literal: none stands where
  the grammar allows it, before the first syntax error. -/
  literal : ∀ q us, ts = q ++ emptyLiteral :: us → ¬ Viable (q ++ [emptyLiteral])
  /-- No token that is looked at before a syntax error holds a NUL. -/
  text : ∀ q t us, ts = q ++ t :: us → Viable q → 0 ∉ t.yytext

theorem Clean.of_append {ts us : List Token} (h : Clean (ts ++ us)) : Clean ts where
  literal q vs hts := h.literal q (vs ++ us) (by rw [hts, List.append_assoc, List.cons_append])
  text q t vs hts := h.text q t (vs ++ us) (by rw [hts, List.append_assoc, List.cons_append])

/-- A text without such tokens is clean. -/
theorem Clean.of_not_mem {ts : List Token} (h : emptyLiteral ∉ ts) (hnul : ∀ t ∈ ts, 0 ∉ t.yytext) :
    Clean ts where
  literal q _ hts := absurd (hts ▸ List.mem_append_right q List.mem_cons_self) h
  text q t _ hts _ := hnul t (hts ▸ List.mem_append_right q List.mem_cons_self)

/-- In a viable text any empty string literal is taken in. -/
theorem Clean.not_mem {ts : List Token} (h : Clean ts) (hv : Viable ts) : emptyLiteral ∉ ts := by
  intro hmem
  obtain ⟨q, us, rfl⟩ := List.append_of_mem hmem
  have hsplit : Viable ((q ++ [emptyLiteral]) ++ us) := by
    rwa [List.append_assoc, List.singleton_append]
  exact h.literal q us rfl hsplit.of_append

/-- The text of the token that comes next is copied. -/
theorem Clean.yyTokenVal_eq {ts us : List Token} {t : Token} (h : Clean (ts ++ t :: us))
    (hv : Viable ts) : yyTokenVal t.yytext = .ok t.yytext := by
  rw [Script.yyTokenVal_eq, if_neg (h.text ts t us rfl hv)]

/-! ## What is assumed of the generated parser -/

section

variable {P : Type}

/-- The tokens, line numbers forgotten. -/
abbrev names (toks : List LexToken) : List Token := toks.map Prod.fst

/-- `Parse` has been called on each of the tokens, from a fresh parser and
a zeroed control block, and has returned each time. -/
inductive Lemon.Fed (L : Lemon P) : List LexToken → P → ParseCtrl → Prop
  | nil : Fed L [] L.ParseAlloc .zero
  | snoc {toks : List LexToken} {p p' : P} {pc pc' : ParseCtrl} {t : Token} {n : Int} :
    Fed L toks p pc → L.Parse p (some t) (pc.atLine (toShort n)) = .ok (p', pc') →
      Fed L (toks ++ [(t, n)]) p' pc'

/-- What is relied on of a generated parser. -/
structure Lemon.Documented (L : Lemon P) : Prop where
  /-- A token that continues a derivation is no syntax error. -/
  shift : ∀ {toks p pc t n p' pc'}, L.Fed toks p pc → Viable (names toks ++ [t]) →
    L.Parse p (some t) (pc.atLine (toShort n)) = .ok (p', pc') → pc'.failReason = pc.failReason
  /-- The first token that does not is reported with its line. -/
  reject : ∀ {toks p pc t n p' pc'}, L.Fed toks p pc → Viable (names toks) →
    ¬ Viable (names toks ++ [t]) → L.Parse p (some t) (pc.atLine (toShort n)) = .ok (p', pc') →
    pc'.failReason = some (.syntaxError (toShort n))
  /-- At the end of a complete script the actions of a derivation have run. -/
  accept : ∀ {toks p pc p' pc'}, L.Fed toks p pc → Derivable (names toks) →
    L.Parse p none pc = .ok (p', pc') → pc'.failReason = pc.failReason ∧
      ∃ (tree : Start) (pc'' : ParseCtrl), tree.yield = names toks ∧
        tree.reduce .zero = .ok pc'' ∧ pc'.pcodeHeader.unlined = pc''.pcodeHeader.unlined
  /-- The end of input is reported where the script cannot end. The rules
  that are complete have been reduced: that is the default action in the
  states where one is. -/
  truncated : ∀ {toks p pc p' pc'}, L.Fed toks p pc → Viable (names toks) →
    ¬ Derivable (names toks) → L.Parse p none pc = .ok (p', pc') →
    pc'.failReason = some (.syntaxError pc.lineNo) ∧
      ∃ (cut : Cut) (pc'' : ParseCtrl), cut.yield = names toks ∧ cut.reduce .zero = .ok pc'' ∧
        pc'.pcodeHeader.unlined = pc''.pcodeHeader.unlined
  /-- A string literal is reduced by the next call, whatever token it is
  given, and the action of an empty one does not return. -/
  literal : ∀ {toks p pc n}, L.Fed (toks ++ [(emptyLiteral, n)]) p pc →
    Viable (names toks ++ [emptyLiteral]) → ∀ t pc', L.Parse p t pc' = .error .assertion
  /-- Every other call returns, up to the first syntax error. -/
  returns : ∀ {toks p pc t n}, L.Fed toks p pc → Viable (names toks) → Clean (names toks ++ [t]) →
    ∃ s, L.Parse p (some t) (pc.atLine (toShort n)) = .ok s
  returns_end : ∀ {toks p pc}, L.Fed toks p pc → Viable (names toks) → Clean (names toks) →
    ∃ s, L.Parse p none pc = .ok s

end

/-! ## The token loop -/

section

variable {P : Type} {L : Lemon P}

theorem names_snoc (toks : List LexToken) (t : Token) (n : Int) :
    names (toks ++ [(t, n)]) = names toks ++ [t] := List.map_append

/-- The tokens up to the next one. -/
theorem names_split (done rest : List LexToken) (t : Token) (n : Int) :
    names (done ++ (t, n) :: rest) = names done ++ t :: names rest := List.map_append

theorem names_split_snoc (done rest : List LexToken) (t : Token) (n : Int) :
    names (done ++ (t, n) :: rest) = names done ++ [t] ++ names rest := by
  rw [names_split, List.append_assoc, List.singleton_append]

/-- A turn of the loop in which the parser is called. -/
theorem parseLoop_cons {t : Token} {n : Int} {rest : List LexToken} {p : P} {pc : ParseCtrl}
    (hnone : pc.failReason = none) (htext : yyTokenVal t.yytext = .ok t.yytext) :
    parseLoop L ((t, n) :: rest) (p, pc) =
      L.Parse p (some t) (pc.atLine (toShort n)) >>= parseLoop L rest := by
  simp only [parseLoop, hnone, Option.isSome_none, Bool.false_eq_true, if_false, htext, ok_bind]

/-- A text the parser takes in without an error. -/
theorem parseLoop_viable (h : L.Documented) (rest : List LexToken) {done : List LexToken} {p : P}
    {pc : ParseCtrl}
    (hfed : L.Fed done p pc) (hnone : pc.failReason = none)
    (hv : Viable (names (done ++ rest))) (hc : Clean (names (done ++ rest))) :
    ∃ p' pc', parseLoop L rest (p, pc) = .ok (p', pc') ∧ L.Fed (done ++ rest) p' pc' ∧
      pc'.failReason = none := by
  induction rest generalizing done p pc with
  | nil => exact ⟨p, pc, rfl, by rwa [List.append_nil], hnone⟩
  | cons tok rest ih =>
    obtain ⟨t, n⟩ := tok
    have hv' : Viable (names done ++ [t]) := (names_split_snoc done rest t n ▸ hv).of_append
    have hc' : Clean (names done ++ [t]) := (names_split_snoc done rest t n ▸ hc).of_append
    have htext := (names_split done rest t n ▸ hc).yyTokenVal_eq hv'.of_append
    obtain ⟨⟨p', pc'⟩, hparse⟩ := h.returns (n := n) hfed hv'.of_append hc'
    have hnone' : pc'.failReason = none := (h.shift hfed hv' hparse).trans hnone
    have hsplit : done ++ (t, n) :: rest = done ++ [(t, n)] ++ rest := by
      rw [List.append_assoc, List.singleton_append]
    rw [hsplit] at hv hc ⊢
    obtain ⟨p'', pc'', hloop, hrest⟩ := ih (.snoc hfed hparse) hnone' hv hc
    exact ⟨p'', pc'', by rw [parseLoop_cons hnone htext, hparse, ok_bind, hloop], hrest⟩

/-- A text with a token that cannot continue a derivation. -/
theorem parseLoop_reject (h : L.Documented) (rest : List LexToken) {done : List LexToken} {p : P}
    {pc : ParseCtrl}
    (hfed : L.Fed done p pc) (hnone : pc.failReason = none) (hv : Viable (names done))
    (hn : ¬ Viable (names (done ++ rest))) (hc : Clean (names (done ++ rest))) :
    ∃ p' pc', parseLoop L rest (p, pc) = .ok (p', pc') ∧ pc'.failReason.isSome = true := by
  induction rest generalizing done p pc with
  | nil => exact absurd hv (by rwa [List.append_nil] at hn)
  | cons tok rest ih =>
    obtain ⟨t, n⟩ := tok
    have hc' : Clean (names done ++ [t]) := (names_split_snoc done rest t n ▸ hc).of_append
    have htext := (names_split done rest t n ▸ hc).yyTokenVal_eq hv
    obtain ⟨⟨p', pc'⟩, hparse⟩ := h.returns (n := n) hfed hv hc'
    rw [parseLoop_cons hnone htext, hparse, ok_bind]
    by_cases hv' : Viable (names done ++ [t])
    · have hnone' : pc'.failReason = none := (h.shift hfed hv' hparse).trans hnone
      have hsplit : done ++ (t, n) :: rest = done ++ [(t, n)] ++ rest := by
        rw [List.append_assoc, List.singleton_append]
      rw [hsplit] at hn hc
      exact ih (.snoc hfed hparse) hnone' (by rwa [names_snoc]) hn hc
    · have hsome := h.reject hfed hv hv' hparse
      refine ⟨p', pc', ?_, by rw [hsome]; rfl⟩
      cases rest with
      | nil => rfl
      | cons tok rest => simp only [parseLoop, hsome, Option.isSome_some, if_true]

/-- Up to a token, as long as no error is reported: either a call has not
returned, or the loop goes on from there. -/
theorem parseLoop_front (h : L.Documented) (pre rest : List LexToken) {done : List LexToken} {p : P}
    {pc : ParseCtrl} (hfed : L.Fed done p pc) (hnone : pc.failReason = none)
    (hv : Viable (names (done ++ pre))) :
    (∃ f, parseLoop L (pre ++ rest) (p, pc) = .error f) ∨
      ∃ p' pc', parseLoop L (pre ++ rest) (p, pc) = parseLoop L rest (p', pc') ∧
        L.Fed (done ++ pre) p' pc' ∧ pc'.failReason = none := by
  induction pre generalizing done p pc with
  | nil => exact .inr ⟨p, pc, rfl, by rwa [List.append_nil], hnone⟩
  | cons tok pre ih =>
    obtain ⟨t, n⟩ := tok
    have hv' : Viable (names done ++ [t]) := (names_split_snoc done pre t n ▸ hv).of_append
    rw [List.cons_append]
    cases htext : yyTokenVal t.yytext with
    | error f =>
      refine .inl ⟨f, ?_⟩
      simp only [parseLoop, hnone, Option.isSome_none, Bool.false_eq_true, if_false, htext]
      rfl
    | ok text =>
      have htext' : yyTokenVal t.yytext = .ok t.yytext := by
        rw [Script.yyTokenVal_eq] at htext ⊢
        split at htext
        · cases htext
        · rw [if_neg ‹_›]
      rw [parseLoop_cons hnone htext']
      cases hparse : L.Parse p (some t) (pc.atLine (toShort n)) with
      | error f => exact .inl ⟨f, rfl⟩
      | ok s =>
        obtain ⟨p', pc'⟩ := s
        have hsplit : done ++ (t, n) :: pre = done ++ [(t, n)] ++ pre := by
          rw [List.append_assoc, List.singleton_append]
        rw [hsplit] at hv ⊢
        exact ih (.snoc hfed hparse) ((h.shift hfed hv' hparse).trans hnone) hv

/-! ## Outcomes -/

/-- A complete script passes, and its code is that of a derivation tree. -/
theorem ParserParseHCL_derivable (h : L.Documented) {toks : List LexToken}
    (hd : Derivable (names toks)) (hc : Clean (names toks)) :
    ∃ pc, ParserParseHCL L (.script toks) .zero = .ok (.PASS, pc) ∧ pc.failReason = none ∧
      ∃ (tree : Start) (pc' : ParseCtrl), tree.yield = names toks ∧
        tree.reduce .zero = .ok pc' ∧ pc.pcodeHeader.unlined = pc'.pcodeHeader.unlined := by
  obtain ⟨p, pc, hloop, hfed, hnone⟩ := parseLoop_viable h toks .nil rfl hd.viable hc
  obtain ⟨⟨p', pc'⟩, hend⟩ := h.returns_end hfed hd.viable hc
  obtain ⟨hreason, htree⟩ := h.accept hfed hd hend
  refine ⟨pc', ?_, hreason.trans hnone, htree⟩
  simp only [ParserParseHCL, hloop, hnone, hend, Option.isNone_none, if_true, bind, Except.bind]
  rfl

/-- A script that is cut off passes too, with a fail reason, and leaves the
code of the rules that are complete. -/
theorem ParserParseHCL_truncated (h : L.Documented) {toks : List LexToken}
    (hv : Viable (names toks)) (hd : ¬ Derivable (names toks)) (hc : Clean (names toks)) :
    ∃ pc, ParserParseHCL L (.script toks) .zero = .ok (.PASS, pc) ∧
      pc.failReason.isSome = true ∧
      ∃ (cut : Cut) (pc' : ParseCtrl), cut.yield = names toks ∧
        cut.reduce .zero = .ok pc' ∧ pc.pcodeHeader.unlined = pc'.pcodeHeader.unlined := by
  obtain ⟨p, pc, hloop, hfed, hnone⟩ := parseLoop_viable h toks .nil rfl hv hc
  obtain ⟨⟨p', pc'⟩, hend⟩ := h.returns_end hfed hv hc
  obtain ⟨hsome, hcut⟩ := h.truncated hfed hv hd hend
  refine ⟨pc', ?_, by rw [hsome]; rfl, hcut⟩
  simp only [ParserParseHCL, hloop, hnone, hend, Option.isNone_none, if_true, bind, Except.bind]
  rfl

/-- A token that cannot continue a derivation makes the parse fail. -/
theorem ParserParseHCL_rejected (h : L.Documented) {toks : List LexToken}
    (hv : ¬ Viable (names toks)) (hc : Clean (names toks)) :
    ∃ pc, ParserParseHCL L (.script toks) .zero = .ok (.FAIL, pc) ∧
      pc.failReason.isSome = true := by
  have hempty : Viable (names []) :=
    (⟨[.badchar 0], .badchar 0, rfl⟩ : Viable [])
  obtain ⟨p, pc, hloop, hsome⟩ := parseLoop_reject h toks .nil rfl hempty hv hc
  refine ⟨pc, ?_, hsome⟩
  obtain ⟨r, hr⟩ := Option.isSome_iff_exists.mp hsome
  simp only [ParserParseHCL, hloop, hr, Option.isNone_some, Bool.false_eq_true, if_false, bind,
    Except.bind]
  rfl

/-- An empty string literal that is taken in ends the process. -/
theorem ParserParseHCL_literal (h : L.Documented) {pre post : List LexToken} (m : Int)
    (hv : Viable (names pre ++ [emptyLiteral])) :
    ∃ f, ParserParseHCL L (.script (pre ++ (emptyLiteral, m) :: post)) .zero = .error f := by
  have hsplit : pre ++ (emptyLiteral, m) :: post = pre ++ [(emptyLiteral, m)] ++ post := by
    rw [List.append_assoc, List.singleton_append]
  have hv' : Viable (names ([] ++ (pre ++ [(emptyLiteral, m)]))) := by
    rwa [List.nil_append, names_snoc]
  rw [hsplit]
  rcases parseLoop_front h (pre ++ [(emptyLiteral, m)]) post .nil rfl hv' with
    ⟨f, hf⟩ | ⟨p, pc, hloop, hfed, hnone⟩
  · exact ⟨f, by simp only [ParserParseHCL, hf, bind, Except.bind]⟩
  cases post with
  | nil =>
    refine ⟨.assertion, ?_⟩
    simp only [ParserParseHCL, hloop, parseLoop, hnone, Option.isNone_none, if_true,
      h.literal hfed hv, bind, Except.bind]
  | cons tok post =>
    obtain ⟨t, n⟩ := tok
    simp only [ParserParseHCL, hloop, parseLoop, hnone, Option.isSome_none, Bool.false_eq_true,
      if_false, h.literal hfed hv, bind, Except.bind]
    cases yyTokenVal t.yytext with
    | error f => exact ⟨f, rfl⟩
    | ok text => exact ⟨.assertion, rfl⟩

/-- So does a token with a NUL. -/
theorem ParserParseHCL_nul (h : L.Documented) {pre post : List LexToken} {t : Token} (m : Int)
    (hv : Viable (names pre)) (hnul : 0 ∈ t.yytext) :
    ∃ f, ParserParseHCL L (.script (pre ++ (t, m) :: post)) .zero = .error f := by
  rcases parseLoop_front h pre ((t, m) :: post) .nil rfl hv with ⟨f, hf⟩ | ⟨p, pc, hloop, hfed, hnone⟩
  · exact ⟨f, by simp only [ParserParseHCL, hf, bind, Except.bind]⟩
  · refine ⟨.outOfBounds, ?_⟩
    simp only [ParserParseHCL, hloop, parseLoop, hnone, Option.isSome_none, Bool.false_eq_true,
      if_false, yyTokenVal_eq, if_pos hnul, bind, Except.bind]

theorem ParserParseHCL_unclean (h : L.Documented) {toks : List LexToken}
    (hc : ¬ Clean (names toks)) : ∃ f, ParserParseHCL L (.script toks) .zero = .error f := by
  refine Classical.byContradiction fun hreturns => hc ⟨fun q us hnames hv => ?_, fun q t us hnames hv hnul => ?_⟩
  · obtain ⟨pre, tail, rfl, rfl, htail⟩ := List.map_eq_append_iff.mp hnames
    obtain ⟨⟨t, m⟩, post, rfl, ht, rfl⟩ := List.map_eq_cons_iff.mp htail
    cases ht
    exact hreturns (ParserParseHCL_literal h m hv)
  · obtain ⟨pre, tail, rfl, rfl, htail⟩ := List.map_eq_append_iff.mp hnames
    obtain ⟨⟨t', m⟩, post, rfl, ht, rfl⟩ := List.map_eq_cons_iff.mp htail
    cases ht
    exact hreturns (ParserParseHCL_nul h m hv hnul)

/-- `ParserParseHCL` answers for a text as it should: it returns, `PASS`
means a derivable text, and `PASS` comes without a fail reason. -/
def ParsesFaithfully (L : Lemon P) (toks : List LexToken) : Prop :=
  ∃ res pc, ParserParseHCL L (.script toks) .zero = .ok (res, pc) ∧
    (res = .PASS ↔ Derivable (names toks)) ∧ (res = .PASS → pc.failReason = none)

/-- **`ParserParseHCL` is right exactly on the texts that are not cut
off**, complete or wrong at some token, and that hold no empty string
literal where the grammar allows one and no NUL before a syntax error. -/
theorem parsesFaithfully_iff (h : L.Documented) (toks : List LexToken) :
    ParsesFaithfully L toks ↔
      (Derivable (names toks) ∨ ¬ Viable (names toks)) ∧ Clean (names toks) := by
  constructor
  · rintro ⟨res, pc, hparse, hiff, hreason⟩
    have hc : Clean (names toks) := by
      refine Classical.byContradiction fun hc => ?_
      obtain ⟨f, hf⟩ := ParserParseHCL_unclean h hc
      rw [hf] at hparse
      cases hparse
    refine ⟨Classical.byContradiction fun hnot => ?_, hc⟩
    obtain ⟨hd, hv⟩ := not_or.mp hnot
    obtain ⟨pc', hpass, -⟩ := ParserParseHCL_truncated h (Classical.not_not.mp hv) hd hc
    rw [hpass] at hparse
    cases hparse
    exact hd (hiff.mp rfl)
  · rintro ⟨hd | hv, hc⟩
    · obtain ⟨pc, hparse, hnone, -⟩ := ParserParseHCL_derivable h hd hc
      exact ⟨.PASS, pc, hparse, iff_of_true rfl hd, fun _ => hnone⟩
    · obtain ⟨pc, hparse, -⟩ := ParserParseHCL_rejected h hv hc
      have hne : PassFail.FAIL ≠ .PASS := by decide
      exact ⟨.FAIL, pc, hparse, iff_of_false hne fun hd => hv hd.viable, fun heq => absurd heq hne⟩

end

/-! ## Texts that cannot end -/

/-- The tokens a derivable text may end with. -/
def Token.isFinal : Token → Bool
  | .semi | .cbrace | .badchar _ => true
  | _ => false

theorem getLast?_append_final {ts us : List Token} {t : Token} (h : us.getLast? = some t)
    (ht : t.isFinal = true) : ∃ t, (ts ++ us).getLast? = some t ∧ t.isFinal = true :=
  ⟨t, by rw [List.getLast?_append, h, Option.some_or], ht⟩

theorem Statement.yield_final (s : Statement) :
    ∃ t, s.yield.getLast? = some t ∧ t.isFinal = true := by
  cases s with
  | function f args n =>
    refine ⟨.semi, ?_, rfl⟩
    simp only [Statement.yield, List.getLast?_append, List.getLast?_cons_cons,
      List.getLast?_singleton, Option.some_or]
  | assignment lhs rhs n => exact getLast?_append_final List.getLast?_singleton rfl
  | ifconst t block n => exact getLast?_append_final List.getLast?_singleton rfl
  | ifelseconst t block elseblock n => exact getLast?_append_final List.getLast?_singleton rfl

theorem StatementList.yield_final (l : StatementList) :
    ∃ t, l.yield.getLast? = some t ∧ t.isFinal = true := by
  cases l with
  | initial s => exact s.yield_final
  | successive l s =>
    obtain ⟨t, hlast, ht⟩ := s.yield_final
    exact getLast?_append_final hlast ht

/-- A derivable text is not empty and ends with `;`, `}` or a bad
character. -/
theorem Derivable.final {ts : List Token} (h : Derivable ts) :
    ∃ t, ts.getLast? = some t ∧ t.isFinal = true := by
  obtain ⟨l | c, rfl⟩ := h
  · exact l.yield_final
  · exact ⟨.badchar c, rfl, rfl⟩

/-! ## A parser that defers its actions -/

/-- The actions of a clean text return. -/
theorem Start.reduce_of_clean {tree : Start} (h : Clean tree.yield) :
    ∃ pc, tree.reduce .zero = .ok pc := by
  cases tree with
  | badchar c => exact ⟨.zero, rfl⟩
  | statementlist l =>
    have hv : Viable l.yield := Derivable.viable ⟨.statementlist l, rfl⟩
    have hempty : l.hasEmptyString = false := by
      refine Bool.eq_false_iff.mpr fun hl => ?_
      exact h.not_mem hv (l.mem_of_hasEmptyString hl)
    exact ⟨_, l.reduce_zero hempty⟩

/-- What is cut off has a cut tree. -/
theorem Viable.exists_cut {ts : List Token} (hv : Viable ts) (hd : ¬ Derivable ts) :
    ∃ cut : Cut, cut.yield = ts := by
  obtain ⟨us, l | c, hyield⟩ := hv
  · exact l.exists_cut hyield.symm
  · rcases ts with _ | ⟨t, ts⟩
    · exact ⟨.nothing, rfl⟩
    · obtain ⟨rfl, hrest⟩ := List.cons.inj hyield
      obtain ⟨rfl, -⟩ := List.append_eq_nil_iff.mp hrest.symm
      exact absurd ⟨.badchar c, rfl⟩ hd

open Classical in
/-- A parser that keeps the tokens and runs the actions at the end of the
input: the least that meets what is documented. -/
noncomputable def Lemon.deferred : Lemon (List Token) where
  ParseAlloc := []
  Parse ts t pc :=
    if ts.getLast? = some emptyLiteral ∧ Viable ts then .error .assertion
    else match t with
      | some t =>
        if Viable (ts ++ [t]) then .ok (ts ++ [t], pc)
        else .ok (ts ++ [t], { pc with failReason := some (.syntaxError pc.lineNo) })
      | none =>
        if h : Derivable ts then do
          let done ← h.choose.reduce .zero
          return (ts, { pc with pcodeHeader := done.pcodeHeader })
        else if h : ∃ cut : Cut, cut.yield = ts then do
          let done ← h.choose.reduce .zero
          return (ts, ⟨done.pcodeHeader, some (.syntaxError pc.lineNo), pc.lineNo⟩)
        else .ok (ts, { pc with failReason := some (.syntaxError pc.lineNo) })

theorem Lemon.deferred_fed {toks : List LexToken} {p : List Token} {pc : ParseCtrl}
    (h : deferred.Fed toks p pc) : p = names toks := by
  induction h with
  | nil => rfl
  | @snoc toks p p' pc pc' t n hfed hparse ih =>
    subst ih
    rw [names_snoc]
    simp only [deferred] at hparse
    split at hparse
    · cases hparse
    · split at hparse <;> cases hparse <;> rfl

theorem Lemon.deferred_documented : deferred.Documented where
  shift := by
    intro toks p pc t n p' pc' hfed hv hparse
    obtain rfl := deferred_fed hfed
    simp only [deferred, if_pos hv] at hparse
    split at hparse <;> cases hparse
    rfl
  reject := by
    intro toks p pc t n p' pc' hfed _ hv hparse
    obtain rfl := deferred_fed hfed
    simp only [deferred, if_neg hv] at hparse
    split at hparse <;> cases hparse
    rfl
  accept := by
    intro toks p pc p' pc' hfed hd hparse
    obtain rfl := deferred_fed hfed
    simp only [deferred, dif_pos hd] at hparse
    split at hparse
    · cases hparse
    obtain ⟨done, hdone, hret⟩ := bind_ok hparse
    cases hret
    exact ⟨rfl, hd.choose, done, hd.choose_spec, hdone, rfl⟩
  truncated := by
    intro toks p pc p' pc' hfed hv hd hparse
    obtain rfl := deferred_fed hfed
    have hcut := hv.exists_cut hd
    simp only [deferred, dif_neg hd, dif_pos hcut] at hparse
    split at hparse
    · cases hparse
    obtain ⟨done, hdone, hret⟩ := bind_ok hparse
    cases hret
    exact ⟨rfl, hcut.choose, done, hcut.choose_spec, hdone, rfl⟩
  literal := by
    intro toks p pc n hfed hv t pc'
    obtain rfl := deferred_fed hfed
    have hlast : (names toks ++ [emptyLiteral]).getLast? = some emptyLiteral :=
      List.getLast?_concat
    rw [names_snoc]
    simp only [deferred, if_pos (And.intro hlast hv)]
  returns := by
    intro toks p pc t n hfed _ hc
    obtain rfl := deferred_fed hfed
    have hlast : ¬ ((names toks).getLast? = some emptyLiteral ∧ Viable (names toks)) :=
      fun ⟨hl, hv⟩ => hc.of_append.not_mem hv (List.mem_of_getLast? hl)
    simp only [deferred, if_neg hlast]
    split
    · exact ⟨_, rfl⟩
    · exact ⟨_, rfl⟩
  returns_end := by
    intro toks p pc hfed hv hc
    obtain rfl := deferred_fed hfed
    have hempty : emptyLiteral ∉ names toks := hc.not_mem hv
    have hlast : ¬ ((names toks).getLast? = some emptyLiteral ∧ Viable (names toks)) :=
      fun ⟨hl, _⟩ => hempty (List.mem_of_getLast? hl)
    simp only [deferred, if_neg hlast]
    split
    · rename_i hd
      rw [← hd.choose_spec] at hc
      obtain ⟨done, hdone⟩ := Start.reduce_of_clean hc
      simp only [hdone]
      exact ⟨_, rfl⟩
    split
    · rename_i hcut
      obtain ⟨done, hdone, -⟩ := hcut.choose.reduce_eq_layout .zero rfl
        (by rw [hcut.choose_spec]; exact hempty)
      simp only [hdone]
      exact ⟨_, rfl⟩
    · exact ⟨_, rfl⟩

/-- The assignment `$a{b} = 1;`. -/
def sampleAssignment : Start :=
  .statementlist (.initial (.assignment ⟨⟨cstr "a", by decide⟩, ⟨cstr "b", by decide⟩⟩
    (.rvalue (.intlit (cstr "1"))) 1))

/-- The tokens of a tree, all on the first line. -/
def Start.lexed (t : Start) : List LexToken := t.yield.map (·, 1)

theorem parsesFaithfully_sampleAssignment :
    ParsesFaithfully Lemon.deferred sampleAssignment.lexed ↔
      (Derivable (names sampleAssignment.lexed) ∨ ¬ Viable (names sampleAssignment.lexed)) ∧
        Clean (names sampleAssignment.lexed) :=
  parsesFaithfully_iff Lemon.deferred_documented sampleAssignment.lexed

/-- `$a{b} = 1`, the assignment cut off before its `;`, passes with a
fail reason. -/
theorem truncatedAssignment_passes :
    ¬ ∀ toks : List LexToken,
      ParsesFaithfully Lemon.deferred toks := by
  intro h
  let toks := sampleAssignment.lexed.dropLast
  have hviable : Viable (names toks) := ⟨[.semi], sampleAssignment, rfl⟩
  have hnot : ¬ Derivable (names toks) := by
    intro hd
    obtain ⟨t, hlast, ht⟩ := hd.final
    cases hlast
    cases ht
  have hclean : Clean (names toks) := Clean.of_not_mem (by decide) (by decide)
  obtain ⟨pc, hpass, -⟩ :=
    ParserParseHCL_truncated Lemon.deferred_documented hviable hnot hclean
  obtain ⟨res, pc', hparse, hiff, -⟩ := h toks
  rw [hpass] at hparse
  cases hparse
  exact hnot (hiff.mp rfl)

end XplEvent.Script
