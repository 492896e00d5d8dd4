import XplEvent.Script.Lexer

/-!
# Texts and their tokens

What a text has to look like for the lexer to return given tokens
(`yylex_eq_iff`): the tokens written out, with blanks and comments between
them, none of which runs on into what follows. Whether one does can be
told from the character behind it (`apart_of_not_runsOn`), so a text is
read back as the tokens it was written from whatever its layout
(`yylex_of_laidOut`).
-/

namespace XplEvent.Script

open Lib.Pattern Flex

/-- Standing alone, the text of the token is read as the token. -/
def Token.Spelled (t : Token) : Prop := yylex 0 t.yytext = [(t, 0)]

instance (t : Token) : Decidable t.Spelled := inferInstanceAs (Decidable (_ = _))

/-- A text with the tokens that are written in it, from line `n` on. -/
inductive Spells : Int → CString → List LexToken → Prop
  | nil {n : Int} : Spells n [] []
  | blank {n : Int} {c : CChar} {rest : CString} {toks : List LexToken} :
    c ∈ blanks → Spells (n + ([c].count LF : Nat)) rest toks → Spells n (c :: rest) toks
  | comment {n : Int} {body rest : CString} {toks : List LexToken} :
    LF ∉ body → Spells (n + 1) rest toks → Spells n (35 :: body ++ LF :: rest) toks
  | token {n : Int} {t : Token} {rest : CString} {toks : List LexToken} :
    t.Spelled → Lib.Apart LexRule.accepts lexRules t.yytext rest → Spells n rest toks →
      Spells n (t.yytext ++ rest) ((t, n) :: toks)

/-! ## One piece -/

theorem Bareword.ofText_eq_some {text : CString} {n : Bareword} (h : ofText text = some n) :
    n.text = text := by
  rw [ofText] at h
  split at h
  · cases h
    rfl
  · cases h

theorem Bareword.ofText_ne_none {text : CString} (h : text ∈ Flex.bareword.matches') :
    ofText text ≠ none := by
  have hne : text ≠ [] := by
    rintro rfl
    exact absurd (matchEpsilon_of_nil h) (by decide)
  rw [ofText, dif_pos hne]
  exact Option.some_ne_none _

/-- The two parts of a quoted text. -/
theorem stringlitToken_eq {text : CString} {wide : Bool} {body : CString}
    (h : Stringlit text wide body) : stringlitToken text = .stringlit wide body := by
  rw [h.text]
  cases wide with
  | false =>
    have hhead : (Token.stringlit false body).stringVal = 34 :: (body ++ [34]) := rfl
    rw [hhead, stringlitToken, List.head?_cons, if_neg (by decide)]
    exact congrArg _ List.dropLast_concat
  | true =>
    have hhead : (Token.stringlit true body).stringVal = 76 :: 34 :: (body ++ [34]) := rfl
    rw [hhead, stringlitToken, List.head?_cons, if_pos rfl]
    exact congrArg _ List.dropLast_concat

/-- A text without the newline that its pattern does not hold. -/
theorem LexRule.no_LF {r : LexRule} {yytext : CString} (h : r.accepts yytext = true)
    (hno : ¬ Occurs LF r.pattern) : LF ∉ yytext :=
  fun hmem => hno (occurs_of_mem (accepts_iff.mp h) hmem)

/-- **What an action returns**: a token of the text, which has no newline
in it. -/
theorem action_some {r : LexRule} (hr : r ∈ lexRules) {yytext : CString}
    (haccepts : r.accepts yytext = true) {t : Token} (h : r.action yytext = some t) :
    t.yytext = yytext ∧ LF ∉ yytext := by
  have hmem := LexRule.accepts_iff.mp haccepts
  rcases List.mem_append.mp hr with hr | hr
  · obtain ⟨p, hp, rfl⟩ := List.mem_map.mp hr
    cases h
    have hall : literalRules.all (fun p => decide (p.2.yytext = p.1 ∧ LF ∉ p.1)) = true := by
      decide +kernel
    rw [mem_literal.mp hmem]
    exact of_decide_eq_true (List.all_eq_true.mp hall p hp)
  · simp only [patternRules, List.mem_cons, List.not_mem_nil, or_false] at hr
    rcases hr with rfl | rfl | rfl | rfl | rfl | rfl | rfl | rfl | rfl
    · refine ⟨?_, LexRule.no_LF haccepts (by decide +kernel)⟩
      obtain ⟨n, hn, rfl⟩ := Option.map_eq_some_iff.mp h
      obtain ⟨v, -, rfl⟩ := mem_literal_mul.mp hmem
      exact congrArg (cstr "$" ++ ·) (Bareword.ofText_eq_some hn)
    · refine ⟨?_, LexRule.no_LF haccepts (by decide +kernel)⟩
      obtain ⟨n, hn, rfl⟩ := Option.map_eq_some_iff.mp h
      obtain ⟨v, -, rfl⟩ := mem_literal_mul.mp hmem
      exact congrArg (cstr "%" ++ ·) (Bareword.ofText_eq_some hn)
    · refine ⟨?_, LexRule.no_LF haccepts (by decide +kernel)⟩
      obtain ⟨n, hn, rfl⟩ := Option.map_eq_some_iff.mp h
      exact Bareword.ofText_eq_some hn
    · refine ⟨?_, LexRule.no_LF haccepts (by decide +kernel)⟩
      cases h
      rfl
    · refine ⟨?_, LexRule.no_LF haccepts (by decide +kernel)⟩
      cases h
      rfl
    · refine ⟨?_, LexRule.no_LF haccepts (by decide +kernel)⟩
      obtain ⟨wide, body, hquoted⟩ := mem_stringlit.mp hmem
      cases h
      rw [stringlitToken_eq hquoted]
      exact hquoted.text.symm
    · cases h
    · cases h
    · refine ⟨?_, LexRule.no_LF haccepts (by decide +kernel)⟩
      obtain ⟨c, -, rfl⟩ := mem_oneOf.mp hmem
      cases h
      rfl

/-- What an action skips is a blank or a comment. -/
theorem action_none {r : LexRule} (hr : r ∈ lexRules) {yytext : CString}
    (haccepts : r.accepts yytext = true) (h : r.action yytext = none) :
    (∃ c ∈ blanks, yytext = [c]) ∨ ∃ body, LF ∉ body ∧ yytext = 35 :: body ++ [LF] := by
  have hmem := LexRule.accepts_iff.mp haccepts
  rcases List.mem_append.mp hr with hr | hr
  · obtain ⟨p, hp, rfl⟩ := List.mem_map.mp hr
    cases h
  · simp only [patternRules, List.mem_cons, List.not_mem_nil, or_false] at hr
    rcases hr with rfl | rfl | rfl | rfl | rfl | rfl | rfl | rfl | rfl
    · obtain ⟨v, hv, rfl⟩ := mem_literal_mul.mp hmem
      exact absurd (Option.map_eq_none_iff.mp h) (Bareword.ofText_ne_none hv)
    · obtain ⟨v, hv, rfl⟩ := mem_literal_mul.mp hmem
      exact absurd (Option.map_eq_none_iff.mp h) (Bareword.ofText_ne_none hv)
    · exact absurd (Option.map_eq_none_iff.mp h) (Bareword.ofText_ne_none hmem)
    · cases h
    · cases h
    · cases h
    · exact .inr (mem_comment hmem)
    · exact .inl (mem_oneOf.mp hmem)
    · obtain ⟨c, -, rfl⟩ := mem_oneOf.mp hmem
      cases h

/-- Every text begins with something a rule accepts. -/
theorem lexRules_total : Lib.Total LexRule.accepts lexRules := by
  intro c text
  have hone : ∀ r ∈ patternRules, [c] ∈ r.pattern.matches' → ∃ r ∈ lexRules, ∃ m, 0 < m ∧
      m ≤ (c :: text).length ∧ r.accepts ((c :: text).take m) = true := fun r hr hmem =>
    ⟨r, List.mem_append_right _ hr, 1, Nat.one_pos, Nat.succ_le_succ (Nat.zero_le _),
      LexRule.accepts_iff.mpr hmem⟩
  by_cases hc : c = LF
  · refine hone ⟨oneOf blanks, fun _ => none⟩ ?_ (mem_oneOf.mpr ⟨c, ?_, rfl⟩)
    · simp only [patternRules, List.mem_cons, true_or, or_true]
    · rw [hc]
      decide
  · refine hone ⟨noneOf (cstr "\n"), fun yytext => yytext.head?.map .badchar⟩ ?_
      (mem_oneOf.mpr ⟨c, mem_noneOf.mpr ?_, rfl⟩)
    · simp only [patternRules, List.mem_cons, true_or, or_true]
    · exact fun hmem => hc (List.mem_singleton.mp hmem)

/-- A rule that takes a piece is one of the rules, and accepts it. -/
theorem accepts_of_munched {r : LexRule} {w : CString}
    (h : Lib.Munched LexRule.accepts lexRules w r w.length) : r ∈ lexRules ∧ r.accepts w = true := by
  obtain ⟨before, after, hsplit, -⟩ := h.first
  have haccepted := h.accepted
  rw [List.take_length] at haccepted
  exact ⟨hsplit ▸ List.mem_append_right before List.mem_cons_self, haccepted⟩

/-- A piece alone, as the lexer sees it. -/
theorem yylex_of_munched {r : LexRule} {w : CString}
    (h : Lib.Munched LexRule.accepts lexRules w r w.length) (n : Int) :
    yylex n w = yytokens n [(r, w)] := by
  have hm : Lib.Munched LexRule.accepts lexRules (w ++ []) r w.length := by rwa [List.append_nil]
  have hcut := Lib.Cut.cons hm .nil
  rw [List.append_nil] at hcut
  rw [yylex, Lib.scan_of_cut hcut (Nat.le_refl _)]

theorem Token.spelled_of_munched {r : LexRule} {w : CString} {t : Token}
    (h : Lib.Munched LexRule.accepts lexRules w r w.length) (ht : r.action w = some t) :
    t.Spelled ∧ t.yytext = w ∧ LF ∉ w := by
  obtain ⟨hr, haccepts⟩ := accepts_of_munched h
  obtain ⟨htext, hLF⟩ := action_some hr haccepts ht
  refine ⟨?_, htext, hLF⟩
  rw [Spelled, htext, yylex_of_munched h, yytokens, ht, List.count_eq_zero.mpr hLF]
  rfl

/-- A token is no longer than the text it is found in. -/
theorem length_of_mem_yytokens {s : CString} {pieces : List (LexRule × CString)}
    (h : Lib.Cut LexRule.accepts lexRules s pieces) {n m : Int} {t : Token}
    (ht : (t, m) ∈ yytokens n pieces) : t.yytext.length ≤ s.length := by
  induction h generalizing n with
  | nil => exact absurd ht List.not_mem_nil
  | @cons r w rest pieces hm hcut ih =>
    have hrest : rest.length ≤ (w ++ rest).length := by
      rw [List.length_append]
      exact Nat.le_add_left _ _
    rw [yytokens] at ht
    cases haction : r.action w with
    | none =>
      rw [haction] at ht
      exact Nat.le_trans (ih ht) hrest
    | some t' =>
      rw [haction] at ht
      rcases List.mem_cons.mp ht with heq | ht
      · obtain ⟨-, htext, -⟩ := Token.spelled_of_munched (Lib.munched_append_iff.mp hm).1 haction
        rw [(Prod.mk.inj heq).1, htext, List.length_append]
        exact Nat.le_add_right _ _
      · exact Nat.le_trans (ih ht) hrest

/-- A token that is read from its own text is taken by one rule. -/
theorem Token.Spelled.munched {t : Token} (h : t.Spelled) :
    ∃ r, Lib.Munched LexRule.accepts lexRules t.yytext r t.yytext.length ∧
      r.action t.yytext = some t := by
  have hcut := Lib.cut_scan (s := t.yytext) lexRules_total (Nat.le_refl _)
  rw [Spelled, yylex] at h
  generalize htext : t.yytext = text at hcut h ⊢
  generalize Lib.scan LexRule.accepts lexRules text.length text = pieces at hcut h
  cases hcut with
  | nil => cases h
  | @cons r w rest pieces hm hcut =>
    obtain ⟨halone, -⟩ := Lib.munched_append_iff.mp hm
    rw [yytokens] at h
    cases haction : r.action w with
    | none =>
      rw [haction] at h
      -- the token would have to fit behind what is skipped
      have hle := length_of_mem_yytokens hcut (h ▸ List.mem_cons_self)
      have hpos := halone.pos
      rw [htext, List.length_append] at hle
      omega
    | some t' =>
      rw [haction] at h
      obtain ⟨-, htext', -⟩ := Token.spelled_of_munched halone haction
      obtain rfl := (Prod.mk.inj (List.cons.inj h).1).1
      have hrest : rest = [] := List.append_right_eq_self.mp (htext.symm.trans htext')
      rw [hrest, List.append_nil]
      exact ⟨r, halone, haction⟩

/-! ## Where a piece ends -/

/-- A text may be taken together with a character behind it. A quote and
a `#` that are taken alone may be taken with all that follows. -/
def runsOn (yytext : CString) (c : CChar) : Bool :=
  match yytext with
  | [] => false
  | a :: w =>
    (wordStarts.contains a && wordChars.contains c) ||
      (digits.contains a && numberChars.contains c) ||
      (w.isEmpty && ((cstr "><=!").contains a && c = 61 || a = 34 || a = 35 || a = 76 && c = 34))

theorem begins_stringlit {c : CChar} (h : Begins c stringlit) : c = 34 ∨ c = 76 := by
  rcases h with ((((h | h) | ⟨-, h⟩) | ⟨h, -⟩) | ⟨h, -⟩)
  · exact h.elim
  · rcases h with h | ⟨h, -⟩
    · exact .inr h
    · cases h
  · rcases h with h | ⟨h, -⟩
    · exact .inl h
    · cases h
  · cases h
  · cases h

/-- A text of two characters with a quote among them is a quoted one. -/
theorem stringlit_of_quote {r : LexRule} (hr : r ∈ lexRules) {a b : CChar} {w : CString}
    (haccepts : r.accepts (a :: b :: w) = true) (h : a = 34 ∨ (a = 76 ∧ b = 34)) :
    a :: b :: w ∈ stringlit.matches' := by
  rcases runs_on hr (w := []) haccepts with hword | hnumber | ⟨-, ha, -⟩ | hquoted | hcomment
  · rcases h with rfl | ⟨-, rfl⟩
    · exact absurd hword.1 (by decide)
    · exact absurd hword.2 (by decide)
  · rcases h with rfl | ⟨-, rfl⟩
    · exact absurd hnumber.1 (by decide)
    · exact absurd hnumber.2 (by decide)
  · rcases h with rfl | ⟨rfl, -⟩
    · exact absurd ha (by decide)
    · exact absurd ha (by decide)
  · exact hquoted
  · obtain ⟨body, -, hbody⟩ := mem_comment hcomment
    obtain rfl : a = 35 := (List.cons.inj hbody).1
    rcases h with h | ⟨h, -⟩
    · exact absurd h (by decide)
    · exact absurd h (by decide)

/-- A quoted text does not run on. -/
theorem not_stringlit_append {w u : CString} (hw : w ∈ stringlit.matches') (hu : u ≠ []) :
    w ++ u ∉ stringlit.matches' := by
  intro h
  obtain ⟨wide, body, hquoted⟩ := mem_stringlit.mp hw
  obtain ⟨wide', body', hquoted'⟩ := mem_stringlit.mp h
  exact hu (hquoted.prefix_free hquoted' rfl).1

/-- Nor does a comment. -/
theorem not_comment_append {w u : CString} (hw : w ∈ comment.matches') (hu : u ≠ []) :
    w ++ u ∉ comment.matches' := by
  intro h
  obtain ⟨body, -, rfl⟩ := mem_comment hw
  obtain ⟨body', hbody', hsplit⟩ := mem_comment h
  have htail : body ++ [LF] ++ u = body' ++ [LF] := (List.cons.inj hsplit).2
  have hdrop := congrArg List.dropLast htail
  rw [List.dropLast_concat, List.dropLast_append_of_ne_nil hu] at hdrop
  refine hbody' (hdrop ▸ ?_)
  exact List.mem_append_left _ (List.mem_append_right body (List.mem_singleton_self LF))

/-- **A piece ends before a character that cannot go on with it.** -/
theorem apart_of_not_runsOn {r : LexRule} (hr : r ∈ lexRules) {a : CChar} {w rest : CString}
    (haccepts : r.accepts (a :: w) = true)
    (h : ∀ c, rest.head? = some c → runsOn (a :: w) c = false) :
    Lib.Apart LexRule.accepts lexRules (a :: w) rest := by
  rintro r' hr' (_ | ⟨c, u⟩) v rfl hu
  · exact absurd rfl hu
  have hstop := h c rfl
  simp only [runsOn, Bool.or_eq_false_iff, Bool.and_eq_false_iff, List.contains_eq_mem,
    decide_eq_false_iff_not, List.isEmpty_eq_false_iff] at hstop
  obtain ⟨⟨hword, hnumber⟩, hshort⟩ := hstop
  refine Bool.eq_false_iff.mpr fun hmore => ?_
  rcases runs_on hr' hmore with ⟨ha, hc⟩ | ⟨ha, hc⟩ | ⟨hw, ha, hc⟩ | hquoted | hcomment
  · exact hword.elim (· ha) (· hc)
  · exact hnumber.elim (· ha) (· hc)
  · rcases hshort with hne | ⟨⟨⟨hcompare, -⟩, -⟩, -⟩
    · exact hne hw
    · exact hcompare.elim (· ha) (· hc)
  · cases w with
    | nil =>
      obtain ⟨⟨⟨-, hquote⟩, -⟩, hwide⟩ := hshort.resolve_left fun hne => hne rfl
      rcases begins_stringlit (begins_of_mem hquoted) with rfl | rfl
      · exact hquote rfl
      · -- only a quote may stand behind the `L`
        obtain ⟨wide, body, hlit⟩ := mem_stringlit.mp hquoted
        have htext := hlit.text
        cases wide with
        | false => exact absurd (List.cons.inj htext).1 (by decide)
        | true => exact hwide.elim (· rfl) (· (List.cons.inj (List.cons.inj htext).2).1)
    | cons b w =>
      refine not_stringlit_append (stringlit_of_quote hr haccepts ?_) hu hquoted
      obtain ⟨wide, body, hlit⟩ := mem_stringlit.mp hquoted
      have htext := hlit.text
      cases wide with
      | false => exact .inl (List.cons.inj htext).1
      | true => exact .inr ⟨(List.cons.inj htext).1, (List.cons.inj (List.cons.inj htext).2).1⟩
  · have ha : a = 35 := by
      obtain ⟨body, -, hbody⟩ := mem_comment hcomment
      exact (List.cons.inj hbody).1
    subst ha
    cases w with
    | nil =>
      obtain ⟨⟨-, hhash⟩, -⟩ := hshort.resolve_left fun hne => hne rfl
      exact hhash rfl
    | cons b w =>
      rcases runs_on hr (w := []) haccepts with h | h | h | h | h
      · exact absurd h.1 (by decide)
      · exact absurd h.1 (by decide)
      · exact absurd h.2.1 (by decide)
      · exact absurd (begins_stringlit (begins_of_mem h)) (by decide)
      · exact not_comment_append h hu hcomment

/-- Without a newline behind it a `#` is taken alone. -/
theorem apart_hash {rest : CString} (h : LF ∉ rest) :
    Lib.Apart LexRule.accepts lexRules [35] rest := by
  rintro r hr (_ | ⟨c, u⟩) v rfl hu
  · exact absurd rfl hu
  refine Bool.eq_false_iff.mpr fun haccepts => ?_
  rcases runs_on hr (w := []) haccepts with hword | hnumber | ⟨-, ha, -⟩ | hquoted | hcomment
  · exact absurd hword.1 (by decide)
  · exact absurd hnumber.1 (by decide)
  · exact absurd ha (by decide)
  · exact absurd (begins_stringlit (begins_of_mem hquoted)) (by decide)
  · obtain ⟨body, -, hbody⟩ := mem_comment hcomment
    have htail : c :: u = body ++ [LF] := (List.cons.inj hbody).2
    refine h (List.mem_append_left v ?_)
    rw [htail]
    exact List.mem_append_right body (List.mem_singleton_self LF)

/-! ## The whole text -/

theorem count_comment {body : CString} (h : LF ∉ body) : (35 :: body ++ [LF]).count LF = 1 := by
  have hne : (35 : CChar) ≠ LF := by decide
  rw [List.count_append, List.count_cons_of_ne hne, List.count_eq_zero.mpr h]
  rfl

/-- A piece that is skipped is spelled. -/
theorem skip_spells {n : Int} {w rest : CString} {toks : List LexToken}
    (hskip : (∃ c ∈ blanks, w = [c]) ∨ ∃ body, LF ∉ body ∧ w = 35 :: body ++ [LF])
    (hrest : Spells (n + (w.count LF : Nat)) rest toks) : Spells n (w ++ rest) toks := by
  rcases hskip with ⟨c, hc, rfl⟩ | ⟨body, hbody, rfl⟩
  · exact .blank hc hrest
  · rw [count_comment hbody] at hrest
    rw [List.append_assoc]
    exact .comment hbody hrest

/-- Cutting a text is spelling its tokens. -/
theorem spells_of_cut {s : CString} {pieces : List (LexRule × CString)}
    (h : Lib.Cut LexRule.accepts lexRules s pieces) (n : Int) : Spells n s (yytokens n pieces) := by
  induction h generalizing n with
  | nil => exact .nil
  | @cons r w rest pieces hm _ ih =>
    obtain ⟨halone, hapart⟩ := Lib.munched_append_iff.mp hm
    rw [yytokens]
    cases haction : r.action w with
    | none =>
      obtain ⟨hr, haccepts⟩ := accepts_of_munched halone
      exact skip_spells (action_none hr haccepts haction) (ih _)
    | some t =>
      obtain ⟨hspelled, rfl, hLF⟩ := Token.spelled_of_munched halone haction
      have hline : n + ((0 : Nat) : Int) = n := Int.add_zero n
      rw [List.count_eq_zero.mpr hLF, hline]
      exact .token hspelled hapart (ih _)

/-- Blanks are skipped by themselves. -/
theorem yylex_blank {c : CChar} (hc : c ∈ blanks) : yylex 0 [c] = [] := by
  have hall : blanks.all (fun c => decide (yylex 0 [c] = [])) = true := by decide +kernel
  exact of_decide_eq_true (List.all_eq_true.mp hall c hc)

/-- What is skipped is taken as a whole, whatever follows it. -/
theorem munched_skip {w : CString}
    (hskip : (∃ c ∈ blanks, w = [c]) ∨ ∃ body, LF ∉ body ∧ w = 35 :: body ++ [LF])
    (rest : CString) : ∃ r, Lib.Munched LexRule.accepts lexRules (w ++ rest) r w.length ∧
      r.action w = none := by
  have htake : ∀ {a : CChar} {v : CString} {r : LexRule}, r ∈ lexRules → a :: v ∈ r.pattern.matches' →
      (∀ c, runsOn (a :: v) c = false) → ∃ r, Lib.Munched LexRule.accepts lexRules (a :: v) r
        (a :: v).length ∧ Lib.Apart LexRule.accepts lexRules (a :: v) rest := by
    intro a v r hr hmem hstop
    have haccepts := LexRule.accepts_iff.mpr hmem
    obtain ⟨r', hm⟩ := Lib.exists_munched (List.cons_ne_nil a v) hr haccepts
    exact ⟨r', hm, apart_of_not_runsOn hr haccepts fun c _ => hstop c⟩
  rcases hskip with ⟨c, hc, rfl⟩ | ⟨body, hbody, rfl⟩
  · have hrule : (⟨oneOf blanks, fun _ => none⟩ : LexRule) ∈ lexRules := by
      refine List.mem_append_right _ ?_
      simp only [patternRules, List.mem_cons, true_or, or_true]
    have hstop : ∀ d, runsOn [c] d = false := by
      have hall : blanks.all (fun c => allChars.all fun d => !runsOn [c] d) = true := by
        decide +kernel
      intro d
      have hd := List.all_eq_true.mp (List.all_eq_true.mp hall c hc) d (mem_allChars d)
      rwa [Bool.not_eq_true'] at hd
    obtain ⟨r, hm, hapart⟩ := htake hrule (mem_oneOf.mpr ⟨c, hc, rfl⟩) hstop
    refine ⟨r, Lib.munched_append_iff.mpr ⟨hm, hapart⟩, ?_⟩
    have hnone := yylex_blank hc
    rw [yylex_of_munched hm, yytokens] at hnone
    cases haction : r.action [c] with
    | none => rfl
    | some t =>
      rw [haction] at hnone
      cases hnone
  · have hrule : (⟨comment, fun _ => none⟩ : LexRule) ∈ lexRules := by
      refine List.mem_append_right _ ?_
      simp only [patternRules, List.mem_cons, true_or, or_true]
    have hmem : 35 :: body ++ [LF] ∈ comment.matches' := by
      have hline : 35 :: body ∈ (literal (cstr "#") * RegularExpression.star (noneOf (cstr "\n"))).matches' := by
        refine mem_literal_mul.mpr ⟨body, mem_star_oneOf.mpr fun c hc => mem_noneOf.mpr ?_, rfl⟩
        intro hLF
        obtain rfl : c = LF := List.mem_singleton.mp hLF
        exact hbody hc
      exact Language.append_mem_mul hline (mem_literal.mpr rfl)
    have hstop : ∀ d, runsOn (35 :: (body ++ [LF])) d = false := by
      intro d
      have hword : wordStarts.contains 35 = false := by decide
      have hdigit : digits.contains 35 = false := by decide
      have hlong : (body ++ [LF]).isEmpty = false := by
        rw [List.isEmpty_eq_false_iff]
        exact List.append_ne_nil_of_right_ne_nil body (List.cons_ne_nil LF [])
      rw [runsOn, hword, hdigit, hlong]
      rfl
    obtain ⟨r, hm, hapart⟩ := htake hrule hmem hstop
    refine ⟨r, Lib.munched_append_iff.mpr ⟨hm, hapart⟩, ?_⟩
    obtain ⟨hr, haccepts⟩ := accepts_of_munched hm
    cases haction : r.action (35 :: (body ++ [LF])) with
    | none => exact haction
    | some t =>
      -- a token has no newline in it
      obtain ⟨-, hLF⟩ := action_some hr haccepts haction
      exact absurd (List.mem_append_right (35 :: body) (List.mem_singleton_self LF)) hLF

/-- A text that spells tokens is cut into them and what is skipped. -/
theorem Spells.cut {n : Int} {text : CString} {toks : List LexToken} (h : Spells n text toks) :
    ∃ pieces, Lib.Cut LexRule.accepts lexRules text pieces ∧ yytokens n pieces = toks := by
  have hskip : ∀ {n : Int} {w rest : CString} {toks : List LexToken},
      ((∃ c ∈ blanks, w = [c]) ∨ ∃ body, LF ∉ body ∧ w = 35 :: body ++ [LF]) →
      (∃ pieces, Lib.Cut LexRule.accepts lexRules rest pieces ∧
        yytokens (n + (w.count LF : Nat)) pieces = toks) →
      ∃ pieces, Lib.Cut LexRule.accepts lexRules (w ++ rest) pieces ∧ yytokens n pieces = toks := by
    rintro n w rest toks hw ⟨pieces, hcut, rfl⟩
    obtain ⟨r, hm, hnone⟩ := munched_skip hw rest
    refine ⟨(r, w) :: pieces, .cons hm hcut, ?_⟩
    rw [yytokens, hnone]
  induction h with
  | nil => exact ⟨[], .nil, rfl⟩
  | blank hc _ ih => exact hskip (.inl ⟨_, hc, rfl⟩) ih
  | @comment n body rest toks hbody _ ih =>
    have hcut := hskip (n := n) (.inr ⟨body, hbody, rfl⟩) (by rw [count_comment hbody]; exact ih)
    rwa [List.append_assoc] at hcut
  | @token n t rest toks hspelled hapart _ ih =>
    obtain ⟨pieces, hcut, rfl⟩ := ih
    obtain ⟨r, hm, haction⟩ := hspelled.munched
    refine ⟨(r, t.yytext) :: pieces, .cons (Lib.munched_append_iff.mpr ⟨hm, hapart⟩) hcut, ?_⟩
    obtain ⟨-, -, hLF⟩ := Token.spelled_of_munched hm haction
    have hline : n + ((0 : Nat) : Int) = n := Int.add_zero n
    rw [yytokens, haction, List.count_eq_zero.mpr hLF, hline]

theorem spells_yylex (n : Int) (text : CString) : Spells n text (yylex n text) :=
  spells_of_cut (Lib.cut_scan lexRules_total (Nat.le_refl _)) n

theorem Spells.yylex_eq {n : Int} {text : CString} {toks : List LexToken} (h : Spells n text toks) :
    yylex n text = toks := by
  obtain ⟨pieces, hcut, htoks⟩ := h.cut
  rw [yylex, Lib.scan_of_cut hcut (Nat.le_refl _), htoks]

/-- **What a text is read as**: the tokens that are written in it. -/
theorem yylex_eq_iff {n : Int} {text : CString} {toks : List LexToken} :
    yylex n text = toks ↔ Spells n text toks := by
  constructor
  · rintro rfl
    exact spells_yylex n text
  · exact Spells.yylex_eq

/-- A text with its tokens and blanks and comments between them, in which
no token stands before a character that could go on with it. -/
inductive LaidOut : Int → CString → List LexToken → Prop
  | nil {n : Int} : LaidOut n [] []
  | blank {n : Int} {c : CChar} {rest : CString} {toks : List LexToken} :
    c ∈ blanks → LaidOut (n + ([c].count LF : Nat)) rest toks → LaidOut n (c :: rest) toks
  | comment {n : Int} {body rest : CString} {toks : List LexToken} :
    LF ∉ body → LaidOut (n + 1) rest toks → LaidOut n (35 :: body ++ LF :: rest) toks
  | token {n : Int} {t : Token} {rest : CString} {toks : List LexToken} :
    t.Spelled → (∀ c, rest.head? = some c → runsOn t.yytext c = false) → LaidOut n rest toks →
      LaidOut n (t.yytext ++ rest) ((t, n) :: toks)

/-- A token ends before a character that cannot go on with it. -/
theorem Token.Spelled.apart {t : Token} (h : t.Spelled) {rest : CString}
    (hstop : ∀ c, rest.head? = some c → runsOn t.yytext c = false) :
    Lib.Apart LexRule.accepts lexRules t.yytext rest := by
  obtain ⟨r, hm, -⟩ := h.munched
  obtain ⟨hr, haccepts⟩ := accepts_of_munched hm
  cases htext : t.yytext with
  | nil =>
    rw [htext] at hm
    exact absurd hm.pos (Nat.lt_irrefl 0)
  | cons a w =>
    rw [htext] at haccepts hstop
    exact apart_of_not_runsOn hr haccepts hstop

/-- Every token but a bad character ends before a `#`. -/
theorem Token.Spelled.not_runsOn_hash {t : Token} (h : t.Spelled) (hbad : ∀ c, t ≠ .badchar c) :
    runsOn t.yytext 35 = false := by
  have hword : wordChars.contains 35 = false := by decide
  have hnumber : numberChars.contains 35 = false := by decide
  cases htext : t.yytext with
  | nil => rfl
  | cons a w =>
    rw [runsOn, hword, hnumber, Bool.and_false, Bool.and_false, Bool.or_self, Bool.false_or,
      Bool.and_eq_false_iff]
    cases w with
    | cons b w => exact .inl rfl
    | nil =>
      refine .inr ?_
      rw [Spelled, htext] at h
      have hquote : a ≠ 34 := by
        rintro rfl
        have hread : yylex 0 [34] = [(.badchar 34, 0)] := by decide +kernel
        rw [hread] at h
        exact hbad 34 (Prod.mk.inj (List.cons.inj h).1).1.symm
      have hhash : a ≠ 35 := by
        rintro rfl
        have hread : yylex 0 [35] = [(.badchar 35, 0)] := by decide +kernel
        rw [hread] at h
        exact hbad 35 (Prod.mk.inj (List.cons.inj h).1).1.symm
      have hequal : ((35 : CChar) = 61) = False := by decide
      have hlast : ((35 : CChar) = 34) = False := by decide
      simp only [hequal, hlast, hquote, hhash, decide_false, Bool.and_false, Bool.or_self]

theorem LaidOut.spelled {n : Int} {text : CString} {toks : List LexToken} (h : LaidOut n text toks) :
    ∀ tok ∈ toks, tok.1.Spelled := by
  induction h with
  | nil => exact fun _ h => absurd h List.not_mem_nil
  | blank _ _ ih => exact ih
  | comment _ _ ih => exact ih
  | token hspelled _ _ ih => exact List.forall_mem_cons.mpr ⟨hspelled, ih⟩

/-- A laid out text and more behind it. -/
theorem LaidOut.append {n : Int} {text : CString} {toks : List LexToken} (h : LaidOut n text toks)
    {rest : CString} {toks' : List LexToken}
    (hstop : ∀ tok ∈ toks, ∀ c, rest.head? = some c → runsOn tok.1.yytext c = false)
    (hrest : Spells (n + (text.count LF : Nat)) rest toks') :
    Spells n (text ++ rest) (toks ++ toks') := by
  induction h with
  | nil =>
    have hline : ∀ n : Int, n + (([] : CString).count LF : Nat) = n := Int.add_zero
    rwa [hline] at hrest
  | @blank n c text toks hc _ ih =>
    have hline : n + ((c :: text).count LF : Nat) = n + ([c].count LF : Nat) + (text.count LF : Nat) := by
      rw [← List.singleton_append, List.count_append]
      omega
    rw [hline] at hrest
    exact .blank hc (ih hstop hrest)
  | @comment n body text toks hbody _ ih =>
    have hline : n + ((35 :: body ++ LF :: text).count LF : Nat) = n + 1 + (text.count LF : Nat) := by
      have hsplit : 35 :: body ++ LF :: text = (35 :: body ++ [LF]) ++ text := by
        rw [List.append_assoc, List.singleton_append]
      rw [hsplit, List.count_append, count_comment hbody]
      omega
    rw [hline] at hrest
    have hmore := Spells.comment hbody (ih hstop hrest)
    rwa [List.append_assoc]
  | @token n t text toks hspelled htoken _ ih =>
    obtain ⟨ht, htoks⟩ := List.forall_mem_cons.mp hstop
    obtain ⟨r, hm, haction⟩ := hspelled.munched
    obtain ⟨-, -, hLF⟩ := Token.spelled_of_munched hm haction
    rw [List.count_append, List.count_eq_zero.mpr hLF, Nat.zero_add] at hrest
    rw [List.append_assoc]
    refine .token hspelled (hspelled.apart fun c hc => ?_) (ih htoks hrest)
    cases text with
    | nil => exact ht c hc
    | cons d text => exact htoken c hc

/-- **The layout of a text is not read.** -/
theorem yylex_of_laidOut {n : Int} {text : CString} {toks : List LexToken}
    (h : LaidOut n text toks) : yylex n text = toks := by
  have hspells := h.append (fun _ _ c hc => by cases hc) (.nil : Spells _ [] _)
  rw [List.append_nil, List.append_nil] at hspells
  exact hspells.yylex_eq

/-- The tokens with a blank behind each. -/
def spaced (ts : List Token) : CString := ts.flatMap fun t => t.yytext ++ [32]

theorem laidOut_spaced (n : Int) {ts : List Token}
    (h : ∀ t ∈ ts, t.Spelled ∧ runsOn t.yytext 32 = false) :
    LaidOut n (spaced ts) (ts.map (·, n)) := by
  induction ts with
  | nil => exact .nil
  | cons t ts ih =>
    obtain ⟨⟨hspelled, hstop⟩, hts⟩ := List.forall_mem_cons.mp h
    have hline : n + (([32] : CString).count LF : Nat) = n := Int.add_zero n
    have hblank : LaidOut n (32 :: spaced ts) (ts.map (·, n)) :=
      .blank (by decide) (hline.symm ▸ ih hts)
    rw [spaced, List.flatMap_cons, List.append_assoc, List.singleton_append]
    refine .token hspelled (fun c hc => ?_) hblank
    cases hc
    exact hstop

end XplEvent.Script
