import XplEvent.Script.Layout

/-!
# String literals, from the lexer to the p-code

The `stringlit` pattern of `lex.l`, the string `yyTokenVal` makes of a
token, and the action that takes the quotes off it. The pattern admits an
`L` in front of the opening quote and nothing between the quotes; the
action takes one character off either end, and will not take the last one.
So `L"x"` keeps its opening quote and `""` fails the assertion of
`UtilMoveString` (`stringlit_outcome`).

`quoted` says what stands between the quotes without the pattern: all up
to the first quote that no backslash escapes. No text of the pattern is
the beginning of a longer one (`Stringlit.prefix_free`), so each is a
token as it stands.
-/

namespace XplEvent.Script

/-! ## The pattern -/

/-- `[[:xdigit:]]`. -/
def isxdigit (c : CChar) : Bool := (48 ≤ c ∧ c ≤ 57) ∨ (65 ≤ c ∧ c ≤ 70) ∨ (97 ≤ c ∧ c ≤ 102)

/-- One turn of the repetition between the quotes of `stringlit`. -/
inductive LiteralPiece : CString → Prop
  | char (c : CChar) (h : c ≠ 34 ∧ c ≠ 92 ∧ c ≠ LF) : LiteralPiece [c]
  | escape (c : CChar) (h : c ∈ cstr "'\"?\\abfnrtv") : LiteralPiece [92, c]
  | octal (digits : CString) (hlen : 1 ≤ digits.length ∧ digits.length ≤ 3)
    (h : ∀ c ∈ digits, 48 ≤ c ∧ c ≤ 54) : LiteralPiece (92 :: digits)
  | hex (digits : CString) (hlen : 1 ≤ digits.length) (h : ∀ c ∈ digits, isxdigit c = true) :
    LiteralPiece (92 :: 120 :: digits)
  | ucn4 (digits : CString) (hlen : digits.length = 4) (h : ∀ c ∈ digits, isxdigit c = true) :
    LiteralPiece (92 :: 117 :: digits)
  | ucn8 (digits : CString) (hlen : digits.length = 8) (h : ∀ c ∈ digits, isxdigit c = true) :
    LiteralPiece (92 :: 85 :: digits)

/-- A text that the `stringlit` pattern matches: with an `L` or without
one, and what stands between its two quotes. -/
structure Stringlit (text : CString) (wide : Bool) (body : CString) : Prop where
  pieces : ∃ ps : List CString, (∀ p ∈ ps, LiteralPiece p) ∧ ps.flatten = body
  text : text = (Token.stringlit wide body).stringVal

/-! ## Between the quotes -/

/-- The characters up to the first quote that no backslash escapes, and
what follows it. `escaped` says that the next one is escaped. -/
def quoted (escaped : Bool) : CString → Option (CString × CString)
  | [] => none
  | c :: rest =>
    if escaped = false ∧ c = 34 then some ([], rest)
    else (quoted (!escaped && c = 92) rest).map fun (body, after) => (c :: body, after)

/-- The characters that neither end a literal nor escape another. -/
theorem quoted_append {s : CString} (h : ∀ c ∈ s, c ≠ 34 ∧ c ≠ 92) (rest : CString) :
    quoted false (s ++ rest) = (quoted false rest).map fun (body, after) => (s ++ body, after) := by
  induction s with
  | nil => exact Option.map_id'.symm
  | cons c s ih =>
    obtain ⟨hquote, hescape⟩ := h c List.mem_cons_self
    have hnot : ¬ (false = false ∧ c = 34) := fun h => hquote h.2
    rw [List.cons_append, quoted, if_neg hnot, decide_eq_false hescape, Bool.and_false,
      ih fun d hd => h d (List.mem_cons_of_mem c hd), Option.map_map]
    rfl

/-- An escape with its second character and what belongs to it. -/
theorem quoted_escape (c : CChar) {s : CString} (h : ∀ c ∈ s, c ≠ 34 ∧ c ≠ 92)
    (rest : CString) : quoted false (92 :: c :: (s ++ rest)) =
      (quoted false rest).map fun (body, after) => (92 :: c :: (s ++ body), after) := by
  have hquoted : quoted false (92 :: c :: (s ++ rest)) =
      (quoted false (s ++ rest)).map fun (body, after) => (92 :: c :: body, after) :=
    Option.map_map _ _ _
  rw [hquoted, quoted_append h, Option.map_map]
  rfl

theorem isxdigit_plain {c : CChar} (h : isxdigit c = true) : c ≠ 34 ∧ c ≠ 92 := by
  constructor
  · rintro rfl
    exact absurd h (by decide)
  · rintro rfl
    exact absurd h (by decide)

theorem octal_plain {c : CChar} (h : 48 ≤ c ∧ c ≤ 54) : c ≠ 34 ∧ c ≠ 92 := by
  constructor
  · rintro rfl
    exact absurd h (by decide)
  · rintro rfl
    exact absurd h (by decide)

/-- A piece is passed over as a whole. -/
theorem quoted_piece {p : CString} (h : LiteralPiece p) (rest : CString) :
    quoted false (p ++ rest) = (quoted false rest).map fun (body, after) => (p ++ body, after) := by
  cases h with
  | char c h =>
    refine quoted_append (fun d hd => ?_) rest
    rw [List.mem_singleton.mp hd]
    exact ⟨h.1, h.2.1⟩
  | escape c h => exact quoted_escape c (fun d hd => absurd hd List.not_mem_nil) rest
  | octal digits hlen h =>
    cases digits with
    | nil => exact absurd hlen.1 (Nat.not_succ_le_zero 0)
    | cons c digits =>
      exact quoted_escape c (fun d hd => octal_plain (h d (List.mem_cons_of_mem c hd))) rest
  | hex digits hlen h => exact quoted_escape 120 (fun d hd => isxdigit_plain (h d hd)) rest
  | ucn4 digits hlen h => exact quoted_escape 117 (fun d hd => isxdigit_plain (h d hd)) rest
  | ucn8 digits hlen h => exact quoted_escape 85 (fun d hd => isxdigit_plain (h d hd)) rest

theorem quoted_pieces {ps : List CString} (h : ∀ p ∈ ps, LiteralPiece p) (rest : CString) :
    quoted false (ps.flatten ++ 34 :: rest) = some (ps.flatten, rest) := by
  induction ps with
  | nil => rfl
  | cons p ps ih =>
    rw [List.flatten_cons, List.append_assoc, quoted_piece (h p List.mem_cons_self),
      ih fun q hq => h q (List.mem_cons_of_mem p hq)]
    rfl

variable {text : CString} {wide : Bool} {body : CString}

/-- **The body of a literal is what stands between its quotes**, whatever
follows the literal. -/
theorem Stringlit.quoted (h : Stringlit text wide body) (rest : CString) :
    ∃ start, text ++ rest = (if wide then cstr "L" else []) ++ 34 :: start ∧
      Script.quoted false start = some (body, rest) := by
  obtain ⟨⟨ps, hps, rfl⟩, rfl⟩ := h
  refine ⟨ps.flatten ++ 34 :: rest, ?_, quoted_pieces hps rest⟩
  have hquote : cstr "\"" = [34] := by decide
  simp only [Token.stringVal, hquote, List.append_assoc, List.cons_append, List.nil_append]

/-- No literal is the beginning of a longer one. -/
theorem Stringlit.prefix_free {text' : CString} {wide' : Bool} {body' rest : CString}
    (h : Stringlit text wide body) (h' : Stringlit text' wide' body')
    (htext : text' = text ++ rest) : rest = [] ∧ wide' = wide ∧ body' = body := by
  obtain ⟨start, hstart, hbody⟩ := h.quoted rest
  obtain ⟨start', hstart', hbody'⟩ := h'.quoted []
  rw [List.append_nil, htext, hstart] at hstart'
  have hL : cstr "L" = [76] := by decide
  have hwide : wide' = wide ∧ start = start' := by
    cases wide <;> cases wide' <;>
      simp only [hL, if_true, if_false, Bool.false_eq_true, List.nil_append, List.cons_append,
        List.cons.injEq] at hstart'
    · exact ⟨rfl, hstart'.2⟩
    · exact absurd hstart'.1 (by decide)
    · exact absurd hstart'.1 (by decide)
    · exact ⟨rfl, hstart'.2.2⟩
  obtain ⟨rfl, rfl⟩ := hwide
  rw [hbody] at hbody'
  cases hbody'
  exact ⟨rfl, rfl, rfl⟩

/-! ## The token and its action -/

/-- The string of `yyTokenVal`. `talloc_strndup` stops at a NUL of the
token, and the terminator is then written behind `yyleng` characters of
a copy that is shorter. -/
def yyTokenVal (yytext : CString) : Except Fault CString :=
  if yytext.length < (cutNul yytext).length + 1 then .ok (cutNul yytext) else .error .outOfBounds

/-- The action of `rvalue ::= STRINGLIT`. -/
def stringlitAction (stringVal : CString) (pc : ParseCtrl) : Except Fault ParseCtrl := do
  let s ← UtilMoveString stringVal.dropLast 1
  return ParserPcodeEmit pc .OP_PUSH .OPRD_STRINGLIT (some s) (some (cstr "string literal"))

/-- It is the action of the tree, on the token's own text. -/
theorem stringlitAction_eq_reduce (wide : Bool) (body : CString) (pc : ParseCtrl) :
    stringlitAction (Token.stringlit wide body).stringVal pc =
      (Rvalue.stringlit wide body).reduce pc := rfl

theorem yyTokenVal_eq (yytext : CString) :
    yyTokenVal yytext = if 0 ∈ yytext then .error .outOfBounds else .ok yytext := by
  by_cases hnul : 0 ∈ yytext
  · have hcut : (cutNul yytext).length < yytext.length := by
      obtain ⟨before, after, rfl⟩ := List.append_of_mem hnul
      have hle : (cutNul (before ++ 0 :: after)).length ≤ before.length := by
        rw [cutNul, List.takeWhile_append]
        split
        · simp only [ne_eq, not_true_eq_false, decide_false, Bool.false_eq_true,
            not_false_eq_true, List.takeWhile_cons_of_neg, List.append_nil, Nat.le_refl]
        · exact (List.takeWhile_sublist _).length_le
      rw [List.length_append, List.length_cons]
      omega
    rw [yyTokenVal, if_neg (by omega), if_pos hnul]
  · rw [yyTokenVal, cutNul_eq_self hnul, if_pos (Nat.lt_succ_self _), if_neg hnul]

theorem Stringlit.nul_mem (h : Stringlit text wide body) : 0 ∈ text ↔ 0 ∈ body := by
  have hquote : 0 ∉ cstr "\"" := by decide
  have hL : 0 ∉ cstr "L" := by decide
  rw [h.text, Token.stringVal]
  cases wide <;> simp only [List.mem_append, hquote, hL, if_true, Bool.false_eq_true, if_false,
    List.not_mem_nil, or_false, false_or]

/-- **What becomes of a literal token**: a NUL overruns its copy, `""`
fails an assertion, and any other is pushed, with its opening quote if an
`L` stood before that. -/
theorem stringlit_outcome (h : Stringlit text wide body) (pc : ParseCtrl) :
    (yyTokenVal text >>= fun stringVal => stringlitAction stringVal pc) =
      if 0 ∈ body then .error .outOfBounds
      else if wide = false ∧ body = [] then .error .assertion
      else .ok (ParserPcodeEmit pc .OP_PUSH .OPRD_STRINGLIT
        (some (Rvalue.stringlit wide body).text) (some (cstr "string literal"))) := by
  rw [yyTokenVal_eq]
  simp only [h.nul_mem]
  by_cases hnul : 0 ∈ body
  · rw [if_pos hnul, if_pos hnul]
    rfl
  rw [if_neg hnul, if_neg hnul, ok_bind, h.text]
  by_cases hempty : wide = false ∧ body = []
  · obtain ⟨rfl, rfl⟩ := hempty
    rfl
  · have hsome : (Rvalue.stringlit wide body).isEmptyString = false := by
      cases wide with
      | true => rfl
      | false =>
        cases body with
        | nil => exact absurd ⟨rfl, rfl⟩ hempty
        | cons c body => rfl
    rw [if_neg hempty, stringlitAction, UtilMoveString_literal hsome]
    rfl

/-- The token is accepted and what is pushed is the body. -/
def PushesBody (text body : CString) : Prop :=
  ∀ pc : ParseCtrl, (yyTokenVal text >>= fun stringVal => stringlitAction stringVal pc) =
    .ok (ParserPcodeEmit pc .OP_PUSH .OPRD_STRINGLIT (some body) (some (cstr "string literal")))

/-- **A literal pushes what stands between its quotes exactly when it has
no `L` in front, something between them and no NUL there.** -/
theorem pushesBody_iff (h : Stringlit text wide body) :
    PushesBody text body ↔ wide = false ∧ body ≠ [] ∧ 0 ∉ body := by
  constructor
  · intro hpush
    have hzero := hpush .zero
    rw [stringlit_outcome h] at hzero
    by_cases hnul : 0 ∈ body
    · rw [if_pos hnul] at hzero
      cases hzero
    rw [if_neg hnul] at hzero
    by_cases hempty : wide = false ∧ body = []
    · rw [if_pos hempty] at hzero
      cases hzero
    rw [if_neg hempty] at hzero
    have hdata : [some (Rvalue.stringlit wide body).text] = [some body] :=
      congrArg (fun pc => (ParseCtrl.pcodeHeader pc).code.map Pcode.data1) (Except.ok.inj hzero)
    have htext : (Rvalue.stringlit wide body).text = body :=
      Option.some.inj (List.cons.inj hdata).1
    cases wide with
    | true =>
      -- the opening quote is one character too many
      have hlen := congrArg List.length htext
      have hquote : (cstr "\"").length = 1 := by decide
      simp only [Rvalue.text, if_true, List.length_append, hquote] at hlen
      omega
    | false => exact ⟨rfl, fun hbody => hempty ⟨rfl, hbody⟩, hnul⟩
  · rintro ⟨rfl, hne, hnul⟩ pc
    rw [stringlit_outcome h, if_neg hnul, if_neg fun hempty => hne hempty.2]
    rfl

theorem stringlit_char {c : CChar} (h : c ≠ 34 ∧ c ≠ 92 ∧ c ≠ LF) :
    Stringlit (cstr "\"" ++ [c] ++ cstr "\"") false [c] where
  pieces := ⟨[[c]], fun _ hp => List.mem_singleton.mp hp ▸ .char c h, rfl⟩
  text := rfl

/-- The literal `"a"` is one that pushes its body. -/
theorem pushesBody_a : PushesBody (cstr "\"a\"") (cstr "a") ↔
    false = false ∧ cstr "a" ≠ [] ∧ 0 ∉ cstr "a" :=
  pushesBody_iff (stringlit_char (by decide))

/-- The empty literal ends the process. -/
theorem pushesBody_fails :
    ¬ ∀ text wide body, Stringlit text wide body → PushesBody text body := by
  intro h
  have hempty := h (cstr "\"\"") false [] ⟨⟨[], fun _ hp => absurd hp List.not_mem_nil, rfl⟩, rfl⟩
  have hzero := hempty .zero
  cases hzero

end XplEvent.Script
