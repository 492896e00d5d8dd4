import XplEvent.Script.Spelling

/-!
# The tokens of the language

Which tokens the lexer can return (`yylex_returns_iff`). The rules overlap,
so this is not read off one rule at a time: a keyword is no bareword, and
an integer of more than one digit is a `FLOATLIT`, since that rule matches
it too and stands first. `INTLIT` is for single digits.
-/

namespace XplEvent.Script

open Lib.Pattern RegularExpression Flex

/-! ## One rule, and the rules before it -/

/-- A text that a rule takes, because no rule before it does. -/
theorem spelled_of_rule (before : List LexRule) {after : List LexRule} {r : LexRule}
    (hsplit : patternRules = before ++ r :: after) {w : CString} (hne : w ≠ [])
    (hmem : w ∈ r.pattern.matches') (hliteral : w ∉ literalRules.map Prod.fst)
    (hbefore : ∀ r' ∈ before, w ∉ r'.pattern.matches') {t : Token} (ht : r.action w = some t) :
    t.Spelled ∧ t.yytext = w := by
  have hrules : lexRules = (literalRules.map (fun rule => ⟨literal rule.1, fun _ => some rule.2⟩) ++
      before) ++ r :: after := by rw [lexRules, hsplit, List.append_assoc]
  have hno : ∀ r' ∈ literalRules.map (fun rule => ⟨literal rule.1, fun _ => some rule.2⟩) ++ before,
      r'.accepts w = false := by
    intro r' hr'
    refine Bool.eq_false_iff.mpr fun haccepts => ?_
    have hr'mem := LexRule.accepts_iff.mp haccepts
    rcases List.mem_append.mp hr' with hr' | hr'
    · obtain ⟨p, hp, rfl⟩ := List.mem_map.mp hr'
      exact hliteral (List.mem_map.mpr ⟨p, hp, (mem_literal.mp hr'mem).symm⟩)
    · exact hbefore r' hr' hr'mem
  have hm := (Lib.apart_nil w).munched hne hrules hno (LexRule.accepts_iff.mpr hmem)
  rw [List.append_nil] at hm
  obtain ⟨hspelled, htext, -⟩ := Token.spelled_of_munched hm ht
  exact ⟨hspelled, htext⟩

/-- Two tokens with one text are the same. -/
theorem Token.Spelled.unique {t t' : Token} (h : t.Spelled) (h' : t'.Spelled)
    (htext : t'.yytext = t.yytext) : t' = t := by
  rw [Spelled, htext, h] at h'
  exact (Prod.mk.inj (List.cons.inj h').1).1.symm

theorem spelled_literal {p : CString × Token} (h : p ∈ literalRules) : p.2.Spelled := by
  have hall : literalRules.all (fun p => decide p.2.Spelled) = true := by decide +kernel
  exact of_decide_eq_true (List.all_eq_true.mp hall p h)

/-! ## What the texts begin with -/

theorem scalar_begins {a : CChar} {w : CString} (h : a :: w ∈ scalar.matches') : a = 36 :=
  eq_of_begins_literal (begins_of_mem h)

theorem hash_begins {a : CChar} {w : CString} (h : a :: w ∈ Flex.hash.matches') : a = 37 :=
  eq_of_begins_literal (begins_of_mem h)

/-- What a bareword begins with. -/
def barewordStarts : CString := cstr "_\\" ++ alphas

theorem bareword_begins {a : CChar} {w : CString} (h : a :: w ∈ bareword.matches') :
    a ∈ barewordStarts := by
  rcases begins_of_mem h with (h | h | h) | ⟨hnil, -⟩
  · exact mem_of_all (by decide) (begins_oneOf.mp h)
  · obtain rfl := eq_of_begins_literal h
    decide
  · obtain rfl := eq_of_begins_literal h
    decide
  · cases hnil

/-- No string rule has a text that begins with a sigil, a digit or a
quote. -/
theorem literal_begins {a : CChar} {w : CString} (h : a :: w ∈ literalRules.map Prod.fst) :
    a ∉ cstr "$%\"" ++ digits := by
  have hall : (literalRules.map Prod.fst).all
      (fun s => !(cstr "$%\"" ++ digits).contains (s.headD 0)) = true := by decide
  have hcheck := List.all_eq_true.mp hall _ h
  rw [Bool.not_eq_true', ← Bool.not_eq_true, List.contains_iff_mem] at hcheck
  exact hcheck

theorem stringlit_begins {a : CChar} {w : CString} (h : a :: w ∈ stringlit.matches') :
    34 ∈ a :: w ∧ (a = 34 ∨ a = 76) ∧ w ≠ [] := by
  obtain ⟨wide, body, hquoted⟩ := mem_stringlit.mp h
  have htext := hquoted.text
  cases wide with
  | false =>
    obtain ⟨rfl, rfl⟩ := List.cons.inj (htext : a :: w = 34 :: (body ++ [34]))
    exact ⟨List.mem_cons_self, .inl rfl, List.append_ne_nil_of_right_ne_nil body (List.cons_ne_nil _ _)⟩
  | true =>
    obtain ⟨rfl, rfl⟩ := List.cons.inj (htext : a :: w = 76 :: 34 :: (body ++ [34]))
    exact ⟨List.mem_cons_of_mem _ List.mem_cons_self, .inr rfl, List.cons_ne_nil _ _⟩

theorem bareword_ne_nil {w : CString} (h : w ∈ bareword.matches') : w ≠ [] := by
  rintro rfl
  exact absurd (matchEpsilon_of_nil h) (by decide)

/-! ## The kinds of tokens -/

theorem spelled_scalar {n : Bareword} (h : n.text ∈ bareword.matches') :
    (Token.scalar n).Spelled := by
  have hmem : 36 :: n.text ∈ scalar.matches' :=
    mem_literal_mul (s := cstr "$").mpr ⟨n.text, h, rfl⟩
  refine (spelled_of_rule [] rfl (List.cons_ne_nil _ _) hmem
    (fun hlit => literal_begins hlit (by decide)) (fun r' hr' => absurd hr' List.not_mem_nil) ?_).1
  have hof : Bareword.ofText n.text = some n := dif_pos n.nonempty
  exact Option.map_eq_some_iff.mpr ⟨n, hof, rfl⟩

theorem spelled_hash {n : Bareword} (h : n.text ∈ bareword.matches') :
    (Token.hash n).Spelled := by
  have hmem : 37 :: n.text ∈ Flex.hash.matches' :=
    mem_literal_mul (s := cstr "%").mpr ⟨n.text, h, rfl⟩
  refine (spelled_of_rule (patternRules.take 1) rfl (List.cons_ne_nil _ _) hmem
    (fun hlit => literal_begins hlit (by decide)) (fun r' hr' => ?_) ?_).1
  · obtain rfl := List.mem_singleton.mp hr'
    exact fun hscalar => absurd (scalar_begins hscalar) (by decide)
  · have hof : Bareword.ofText n.text = some n := dif_pos n.nonempty
    exact Option.map_eq_some_iff.mpr ⟨n, hof, rfl⟩

theorem spelled_bareword {n : Bareword} (h : n.text ∈ bareword.matches')
    (hkeyword : n.text ∉ literalRules.map Prod.fst) : (Token.bareword n).Spelled := by
  refine (spelled_of_rule (patternRules.take 2) rfl n.nonempty h hkeyword
    (fun r' hr' => ?_) ?_).1
  · obtain ⟨a, w, htext⟩ := List.exists_cons_of_ne_nil n.nonempty
    rw [htext] at h ⊢
    have hstart := bareword_begins h
    simp only [patternRules, List.take_succ_cons, List.take_zero, List.mem_cons, List.not_mem_nil,
      or_false] at hr'
    rcases hr' with rfl | rfl
    · intro hscalar
      rw [scalar_begins hscalar] at hstart
      exact absurd hstart (by decide)
    · intro hhash
      rw [hash_begins hhash] at hstart
      exact absurd hstart (by decide)
  · have hof : Bareword.ofText n.text = some n := dif_pos n.nonempty
    exact Option.map_eq_some_iff.mpr ⟨n, hof, rfl⟩

/-- A text that begins with a digit is none of a rule before the numbers. -/
theorem digit_before {a : CChar} {w : CString} (ha : a ∈ digits) :
    a :: w ∉ literalRules.map Prod.fst ∧ ∀ r' ∈ patternRules.take 3, a :: w ∉ r'.pattern.matches' := by
  refine ⟨fun hlit => literal_begins hlit (List.mem_append_right _ ha), fun r' hr' => ?_⟩
  simp only [patternRules, List.take_succ_cons, List.take_zero, List.mem_cons, List.not_mem_nil,
    or_false] at hr'
  rcases hr' with rfl | rfl | rfl
  · intro hscalar
    rw [scalar_begins hscalar] at ha
    exact absurd ha (by decide)
  · intro hhash
    rw [hash_begins hhash] at ha
    exact absurd ha (by decide)
  · intro hbareword
    have hdisjoint : barewordStarts.all (fun c => !digits.contains c) = true := by decide
    have hnot := List.all_eq_true.mp hdisjoint a (bareword_begins hbareword)
    rw [Bool.not_eq_true', ← Bool.not_eq_true, List.contains_iff_mem] at hnot
    exact hnot ha

theorem floatlit_ne_nil {w : CString} (h : w ∈ floatlit.matches') : w ≠ [] := by
  rintro rfl
  exact absurd (matchEpsilon_of_nil h) (by decide)

theorem spelled_floatlit {text : CString} (h : text ∈ floatlit.matches') :
    (Token.floatlit text).Spelled := by
  obtain ⟨a, w, rfl⟩ := List.exists_cons_of_ne_nil (floatlit_ne_nil h)
  obtain ⟨hlit, hbefore⟩ := digit_before (w := w) (begins_floatlit (begins_of_mem h))
  exact (spelled_of_rule (patternRules.take 3) rfl (List.cons_ne_nil a w) h hlit hbefore
    rfl).1

/-- Two characters at least. -/
theorem floatlit_long {w : CString} (h : w ∈ floatlit.matches') : 2 ≤ w.length := by
  obtain ⟨front, hfront, back, hback, rfl⟩ := Language.mem_mul.mp h
  obtain ⟨ds, hds, dots, -, rfl⟩ := Language.mem_mul.mp hfront
  have hds := List.length_pos_iff.mpr (mem_oneOrMore_oneOf.mp hds).1
  have hback := List.length_pos_iff.mpr (mem_oneOrMore_oneOf.mp hback).1
  simp only [List.length_append]
  omega

theorem spelled_intlit {d : CChar} (h : d ∈ digits) : (Token.intlit [d]).Spelled := by
  obtain ⟨hlit, hbefore⟩ := digit_before (w := []) h
  have hmem : [d] ∈ intlit.matches' :=
    Language.mem_mul.mpr ⟨[d], mem_oneOf.mpr ⟨d, h, rfl⟩, [], mem_star_oneOf.mpr (fun _ hc =>
      absurd hc List.not_mem_nil), rfl⟩
  refine (spelled_of_rule (patternRules.take 4) rfl (List.cons_ne_nil d []) hmem hlit
    (fun r' hr' => ?_) rfl).1
  have htake : patternRules.take 4 = patternRules.take 3 ++
      [⟨floatlit, fun yytext => some (.floatlit yytext)⟩] := rfl
  rw [htake] at hr'
  rcases List.mem_append.mp hr' with hr' | hr'
  · exact hbefore r' hr'
  · obtain rfl := List.mem_singleton.mp hr'
    exact fun hfloat => absurd (floatlit_long hfloat) (by simp)

/-- **More than one digit is no `INTLIT`.** -/
theorem floatlit_of_digits {w : CString} (hlong : 2 ≤ w.length) (h : ∀ c ∈ w, c ∈ digits) :
    w ∈ floatlit.matches' := by
  cases w with
  | nil => simp at hlong
  | cons d w =>
    obtain ⟨hd, hw⟩ := List.forall_mem_cons.mp h
    have hne : w ≠ [] := by
      rintro rfl
      simp at hlong
    have hfront : [d] ∈ (oneOrMore digit * star (literal (cstr "."))).matches' := by
      refine Language.mem_mul.mpr ⟨[d], mem_oneOrMore_oneOf.mpr ⟨List.cons_ne_nil d [], ?_⟩, [], ?_, rfl⟩
      · exact fun c hc => List.mem_singleton.mp hc ▸ hd
      · exact Language.mem_kstar.mpr ⟨[], rfl, fun _ hv => absurd hv List.not_mem_nil⟩
    exact Language.append_mem_mul hfront (mem_oneOrMore_oneOf.mpr ⟨hne, hw⟩)

theorem spelled_stringlit {wide : Bool} {body : CString}
    (h : Stringlit (Token.stringlit wide body).stringVal wide body) :
    (Token.stringlit wide body).Spelled := by
  have hmem : (Token.stringlit wide body).stringVal ∈ stringlit.matches' :=
    mem_stringlit.mpr ⟨wide, body, h⟩
  have htoken := stringlitToken_eq h
  generalize (Token.stringlit wide body).stringVal = text at hmem htoken
  have hne : text ≠ [] := by
    rintro rfl
    exact absurd (matchEpsilon_of_nil hmem) (by decide)
  obtain ⟨a, w, rfl⟩ := List.exists_cons_of_ne_nil hne
  obtain ⟨hquote, hstart, -⟩ := stringlit_begins hmem
  refine (spelled_of_rule (patternRules.take 5) rfl hne hmem (fun hlit => ?_)
    (fun r' hr' => ?_) (congrArg some htoken)).1
  · have hall : (literalRules.map Prod.fst).all (fun s => !s.contains 34) = true := by decide
    have hno := List.all_eq_true.mp hall _ hlit
    rw [Bool.not_eq_true', ← Bool.not_eq_true, List.contains_iff_mem] at hno
    exact hno hquote
  · simp only [patternRules, List.take_succ_cons, List.take_zero, List.mem_cons, List.not_mem_nil,
      or_false] at hr'
    have hdigit : a ∉ digits := by
      rcases hstart with rfl | rfl
      · decide
      · decide
    rcases hr' with rfl | rfl | rfl | rfl | rfl
    · intro hscalar
      rw [scalar_begins hscalar] at hstart
      exact absurd hstart (by decide)
    · intro hhash
      rw [hash_begins hhash] at hstart
      exact absurd hstart (by decide)
    · exact fun hbareword => absurd (occurs_bareword (occurs_of_mem hbareword hquote)) (by decide)
    · exact fun hfloat => hdigit (begins_floatlit (begins_of_mem hfloat))
    · exact fun hint => hdigit (begins_digits (begins_of_mem hint))

theorem spelled_badchar {c : CChar} (hliteral : [c] ∉ literalRules.map Prod.fst)
    (hclass : c ∉ cstr "_" ++ alphas ++ digits ++ blanks) : (Token.badchar c).Spelled := by
  simp only [List.mem_append, not_or] at hclass
  obtain ⟨⟨⟨hunderscore, halpha⟩, hdigit⟩, hblank⟩ := hclass
  have hmem : [c] ∈ (noneOf (cstr "\n")).matches' := by
    refine mem_oneOf.mpr ⟨c, mem_noneOf.mpr fun hLF => hblank ?_, rfl⟩
    exact mem_of_all (by decide) hLF
  refine (spelled_of_rule (patternRules.take 8) rfl (List.cons_ne_nil c []) hmem hliteral
    (fun r' hr' => ?_) rfl).1
  simp only [patternRules, List.take_succ_cons, List.take_zero, List.mem_cons, List.not_mem_nil,
    or_false] at hr'
  rcases hr' with rfl | rfl | rfl | rfl | rfl | rfl | rfl | rfl
  · intro h
    obtain ⟨v, hv, hsplit⟩ := mem_literal_mul.mp h
    exact bareword_ne_nil hv (List.cons.inj hsplit).2.symm
  · intro h
    obtain ⟨v, hv, hsplit⟩ := mem_literal_mul.mp h
    exact bareword_ne_nil hv (List.cons.inj hsplit).2.symm
  · intro h
    have hstart := bareword_begins h
    rw [barewordStarts, List.mem_append] at hstart
    rcases hstart with hstart | hstart
    · have hcs : cstr "_\\" = [95, 92] := by decide
      simp only [hcs, List.mem_cons, List.not_mem_nil, or_false] at hstart
      rcases hstart with rfl | rfl
      · exact hunderscore (by decide)
      · exact hliteral (by decide)
    · exact halpha hstart
  · exact fun h => absurd (floatlit_long h) (by simp)
  · exact fun h => hdigit (begins_digits (begins_of_mem h))
  · exact fun h => (stringlit_begins h).2.2 rfl
  · intro h
    obtain ⟨body, -, hbody⟩ := mem_comment h
    exact absurd (List.cons.inj hbody).2.symm (List.append_ne_nil_of_right_ne_nil body (List.cons_ne_nil _ _))
  · intro h
    obtain ⟨d, hd, hcd⟩ := mem_oneOf.mp h
    exact hblank ((List.cons.inj hcd).1 ▸ hd)

/-! ## All of them -/

/-- What the text of a token has to be. -/
def Token.Lexeme : Token → Prop
  | .scalar n | .hash n => n.text ∈ Flex.bareword.matches'
  | .bareword n => n.text ∈ Flex.bareword.matches' ∧ n.text ∉ literalRules.map Prod.fst
  | .floatlit text => text ∈ Flex.floatlit.matches'
  | .intlit text => ∃ d ∈ digits, text = [d]
  | .stringlit wide body => Stringlit (Token.stringlit wide body).stringVal wide body
  | .badchar c => [c] ∉ literalRules.map Prod.fst ∧ c ∉ cstr "_" ++ alphas ++ digits ++ blanks
  | _ => True

theorem Token.Lexeme.spelled {t : Token} (h : t.Lexeme) : t.Spelled := by
  cases t with
  | scalar n => exact spelled_scalar h
  | hash n => exact spelled_hash h
  | bareword n => exact spelled_bareword h.1 h.2
  | floatlit text => exact spelled_floatlit h
  | intlit text =>
    obtain ⟨d, hd, rfl⟩ := h
    exact spelled_intlit hd
  | stringlit wide body => exact spelled_stringlit h
  | badchar c => exact spelled_badchar h.1 h.2
  | _ => decide +kernel

theorem literal_lexeme {p : CString × Token} (h : p ∈ literalRules) :
    p.2.Lexeme ∧ (∀ n, p.2 ≠ .bareword n) ∧ ∀ c, p.2 ≠ .badchar c := by
  simp only [literalRules, List.mem_cons, List.not_mem_nil, or_false] at h
  rcases h with rfl | rfl | rfl | rfl | rfl | rfl | rfl | rfl | rfl | rfl | rfl | rfl | rfl | rfl |
    rfl | rfl | rfl | rfl | rfl | rfl <;>
  exact ⟨trivial, fun _ => Token.noConfusion, fun _ => Token.noConfusion⟩

/-- A token that is no string rule's has no string rule's text. -/
theorem Token.Spelled.not_literal {t : Token} (h : t.Spelled)
    (hne : ∀ p ∈ literalRules, p.2 ≠ t) : t.yytext ∉ literalRules.map Prod.fst := by
  intro hmem
  obtain ⟨p, hp, htext⟩ := List.mem_map.mp hmem
  have haction := action_some (r := ⟨literal p.1, fun _ => some p.2⟩)
    (List.mem_append_left _ (List.mem_map.mpr ⟨p, hp, rfl⟩))
    (LexRule.accepts_iff.mpr (mem_literal.mpr rfl)) rfl
  exact hne p hp (h.unique (spelled_literal hp) (haction.1.trans htext))

theorem mem_bareword_of_start {c : CChar} (h : c ∈ cstr "_" ++ alphas) : [c] ∈ bareword.matches' := by
  have hstart : [c] ∈ (oneOf (cstr "_" ++ alphas) + ucn).matches' := .inl (mem_oneOf.mpr ⟨c, h, rfl⟩)
  exact Language.append_mem_mul (b := []) hstart (Language.nil_mem_kstar _)

theorem Token.Spelled.lexeme {t : Token} (h : t.Spelled) : t.Lexeme := by
  obtain ⟨r, hm, ht⟩ := h.munched
  obtain ⟨hr, haccepts⟩ := accepts_of_munched hm
  have hmem := LexRule.accepts_iff.mp haccepts
  generalize htext : t.yytext = text at hmem ht
  rcases List.mem_append.mp hr with hr | hr
  · obtain ⟨p, hp, rfl⟩ := List.mem_map.mp hr
    cases ht
    exact (literal_lexeme hp).1
  · simp only [patternRules, List.mem_cons, List.not_mem_nil, or_false] at hr
    rcases hr with rfl | rfl | rfl | rfl | rfl | rfl | rfl | rfl | rfl
    · obtain ⟨n, hn, rfl⟩ := Option.map_eq_some_iff.mp ht
      obtain ⟨v, hv, rfl⟩ := mem_literal_mul.mp hmem
      have hname : n.text = v := Bareword.ofText_eq_some hn
      exact (hname ▸ hv : n.text ∈ Flex.bareword.matches')
    · obtain ⟨n, hn, rfl⟩ := Option.map_eq_some_iff.mp ht
      obtain ⟨v, hv, rfl⟩ := mem_literal_mul.mp hmem
      have hname : n.text = v := Bareword.ofText_eq_some hn
      exact (hname ▸ hv : n.text ∈ Flex.bareword.matches')
    · obtain ⟨n, hn, rfl⟩ := Option.map_eq_some_iff.mp ht
      have hname : n.text = text := Bareword.ofText_eq_some hn
      exact ⟨hname ▸ hmem, h.not_literal fun p hp => (literal_lexeme hp).2.1 n⟩
    · cases ht
      exact hmem
    · cases ht
      obtain ⟨u, hu, v, hv, rfl⟩ := Language.mem_mul.mp hmem
      obtain ⟨d, hd, rfl⟩ := mem_oneOf.mp hu
      cases v with
      | nil => exact ⟨d, hd, rfl⟩
      | cons e v =>
        have hdigits := List.forall_mem_cons.mpr ⟨hd, mem_star_oneOf.mp hv⟩
        have hfloat := floatlit_of_digits (by simp) hdigits
        exact Token.noConfusion (h.unique (spelled_floatlit hfloat) rfl)
    · cases ht
      obtain ⟨wide, body, hquoted⟩ := mem_stringlit.mp hmem
      rw [stringlitToken_eq hquoted]
      exact (hquoted.text ▸ hquoted : Stringlit (Token.stringlit wide body).stringVal wide body)
    · cases ht
    · cases ht
    · obtain ⟨c, -, rfl⟩ := mem_oneOf.mp hmem
      cases ht
      have hliteral := h.not_literal fun p hp => (literal_lexeme hp).2.2 c
      refine ⟨hliteral, fun hclass => ?_⟩
      rcases List.mem_append.mp hclass with hclass | hblank
      · rcases List.mem_append.mp hclass with hstart | hdigit
        · have hword := spelled_bareword (n := ⟨[c], List.cons_ne_nil c []⟩)
            (mem_bareword_of_start hstart) hliteral
          exact Token.noConfusion (h.unique hword rfl)
        · exact Token.noConfusion (h.unique (spelled_intlit hdigit) rfl)
      · have hread := yylex_blank hblank
        rw [Spelled] at h
        exact absurd (hread.symm.trans h) (List.cons_ne_nil _ _).symm

theorem Spells.spelled {n : Int} {text : CString} {toks : List LexToken} (h : Spells n text toks) :
    ∀ tok ∈ toks, tok.1.Spelled := by
  induction h with
  | nil => exact fun _ h => absurd h List.not_mem_nil
  | blank _ _ ih => exact ih
  | comment _ _ ih => exact ih
  | token hspelled _ _ ih => exact List.forall_mem_cons.mpr ⟨hspelled, ih⟩

/-- A token alone is read alone, on whichever line. -/
theorem Token.Spelled.yylex_eq {t : Token} (h : t.Spelled) (n : Int) :
    yylex n t.yytext = [(t, n)] := by
  have hspells : Spells n (t.yytext ++ []) [(t, n)] := .token h (Lib.apart_nil _) .nil
  rw [List.append_nil] at hspells
  exact hspells.yylex_eq

/-- **The tokens the lexer can return**: the lexemes, and each of them has
a text from which it is read back alone, on whichever line the text is. -/
theorem yylex_returns_iff (t : Token) :
    ((∃ n text m, (t, m) ∈ yylex n text) ↔ t.Lexeme) ∧
      (t.Lexeme → ∃ text, ∀ n, yylex n text = [(t, n)]) := by
  refine ⟨⟨?_, fun h => ⟨0, t.yytext, 0, ?_⟩⟩, fun h => ⟨t.yytext, h.spelled.yylex_eq⟩⟩
  · rintro ⟨n, text, m, hmem⟩
    exact ((spells_yylex n text).spelled _ hmem).lexeme
  · rw [h.spelled]
    exact List.mem_singleton_self _

/-! ## Names and strings without escapes -/

theorem bareword_plain {a : CChar} {w : CString} (ha : a ∈ cstr "_" ++ alphas)
    (hw : w.all (cstr "_" ++ alphas ++ digits).contains = true) : a :: w ∈ bareword.matches' := by
  have hstart : [a] ∈ (oneOf (cstr "_" ++ alphas) + ucn).matches' := .inl (mem_oneOf.mpr ⟨a, ha, rfl⟩)
  refine Language.append_mem_mul hstart (Language.mem_kstar.mpr ⟨w.map ([·]), ?_, fun v hv => ?_⟩)
  · rw [← List.flatMap_def, List.flatMap_singleton']
  · obtain ⟨c, hc, rfl⟩ := List.mem_map.mp hv
    exact .inl (mem_oneOf.mpr ⟨c, List.contains_iff_mem.mp (List.all_eq_true.mp hw c hc), rfl⟩)

theorem stringlit_plain {body : CString}
    (h : body.all (fun c => c ≠ 34 ∧ c ≠ 92 ∧ c ≠ LF) = true) :
    Stringlit (Token.stringlit false body).stringVal false body where
  pieces := by
    refine ⟨body.map ([·]), fun p hp => ?_, ?_⟩
    · obtain ⟨c, hc, rfl⟩ := List.mem_map.mp hp
      exact .char c (of_decide_eq_true (List.all_eq_true.mp h c hc))
    · rw [← List.flatMap_def, List.flatMap_singleton']
  text := rfl

/-- Names and strings without escapes, and what is fixed. -/
def Token.isPlain : Token → Bool
  | .scalar n | .hash n => isPlainName n.text
  | .bareword n => isPlainName n.text && !(literalRules.map Prod.fst).contains n.text
  | .stringlit false body => body.all fun c => c ≠ 34 ∧ c ≠ 92 ∧ c ≠ LF
  | .floatlit _ | .intlit _ | .stringlit true _ | .badchar _ => false
  | _ => true
where
  isPlainName : CString → Bool
    | [] => false
    | a :: w => (cstr "_" ++ alphas).contains a && w.all (cstr "_" ++ alphas ++ digits).contains

theorem Token.lexeme_of_isPlain {t : Token} (h : t.isPlain = true) : t.Lexeme := by
  have hname : ∀ {text : CString}, isPlain.isPlainName text = true →
      text ∈ Flex.bareword.matches' := by
    intro text h
    cases text with
    | nil => cases h
    | cons a w =>
      obtain ⟨ha, hw⟩ := Bool.and_eq_true_iff.mp h
      exact bareword_plain (List.contains_iff_mem.mp ha) hw
  cases t with
  | scalar n => exact hname h
  | hash n => exact hname h
  | bareword n =>
    obtain ⟨h, hkeyword⟩ := Bool.and_eq_true_iff.mp h
    rw [Bool.not_eq_true', ← Bool.not_eq_true, List.contains_iff_mem] at hkeyword
    exact ⟨hname h, hkeyword⟩
  | stringlit wide body =>
    cases wide with
    | false => exact stringlit_plain h
    | true => cases h
  | floatlit text => cases h
  | intlit text => cases h
  | badchar c => cases h
  | _ => trivial

/-! ## A text in pieces -/

/-- What a text is laid out from. -/
inductive Piece
  | blank (c : CChar)
  | comment (body : CString)
  | token (t : Token)

def Piece.text : Piece → CString
  | .blank c => [c]
  | .comment body => 35 :: body ++ [LF]
  | .token t => t.yytext

def piecesText (ps : List Piece) : CString := ps.flatMap Piece.text

/-- The tokens of a text in pieces, from line `n` on. -/
def piecesTokens (n : Int) : List Piece → List LexToken
  | [] => []
  | .blank c :: ps => piecesTokens (n + ([c].count LF : Nat)) ps
  | .comment _ :: ps => piecesTokens (n + 1) ps
  | .token t :: ps => (t, n) :: piecesTokens n ps

/-- The tokens are plain, and each piece ends before the next. -/
def piecesFit : List Piece → Bool
  | [] => true
  | .blank c :: ps => blanks.contains c && piecesFit ps
  | .comment body :: ps => !body.contains LF && piecesFit ps
  | .token t :: ps =>
    t.isPlain && (piecesText ps).head?.all (fun c => !runsOn t.yytext c) && piecesFit ps

theorem laidOut_pieces {ps : List Piece} (hfit : piecesFit ps = true) (n : Int) :
    LaidOut n (piecesText ps) (piecesTokens n ps) := by
  induction ps generalizing n with
  | nil => exact .nil
  | cons p ps ih =>
    rw [piecesText, List.flatMap_cons]
    cases p with
    | blank c =>
      obtain ⟨hc, hfit⟩ := Bool.and_eq_true_iff.mp hfit
      exact .blank (List.contains_iff_mem.mp hc) (ih hfit _)
    | comment body =>
      obtain ⟨hbody, hfit⟩ := Bool.and_eq_true_iff.mp hfit
      rw [Bool.not_eq_true', ← Bool.not_eq_true, List.contains_iff_mem] at hbody
      have hlaid := ih hfit
      rw [Piece.text, List.append_assoc]
      exact .comment hbody (hlaid _)
    | token t =>
      obtain ⟨hhere, hfit⟩ := Bool.and_eq_true_iff.mp hfit
      obtain ⟨hplain, hstop⟩ := Bool.and_eq_true_iff.mp hhere
      refine .token (Token.lexeme_of_isPlain hplain).spelled (fun c hc => ?_) (ih hfit n)
      have hhead : (piecesText ps).head? = some c := hc
      rw [hhead, Option.all_some, Bool.not_eq_true'] at hstop
      exact hstop

end XplEvent.Script
