import XplEvent.Lib.Munch
import XplEvent.Lib.Pattern
import XplEvent.Script.Literals
import XplEvent.Script.Parse

/-!
# The lexer

The definitions and the rules of `lex.l`, in their order, and the scanner
`flex` makes of them: at each place the rule that matches most, and of
several the first.

`runs_on` says which rules match more than one character and what their
texts begin and go on with. Everything about where a token ends is taken
from it: `apart_of_not_runsOn` says that a text a rule matches is not
taken together with what follows, whenever the next character cannot go
on with it.
-/

namespace XplEvent.Script

open RegularExpression Lib.Pattern

/-! ## The definitions section -/

namespace Flex

/-- The characters a scanner of eight bits can meet. -/
def allChars : CString := (List.range 256).map Int8.ofNat

/-- A negated character class. -/
def noneOf (cs : CString) : RegularExpression CChar :=
  oneOf (allChars.filter fun c => !cs.contains c)

/-- `[:alpha:]`. -/
def alphas : CString := cstr "abcdefghijklmnopqrstuvwxyzABCDEFGHIJKLMNOPQRSTUVWXYZ"

/-- `[0-9]`. -/
def digits : CString := cstr "0123456789"

/-- `[:xdigit:]`. -/
def xdigits : CString := cstr "0123456789abcdefABCDEF"

def digit : RegularExpression CChar := oneOf digits

def xdigit : RegularExpression CChar := oneOf xdigits

def floatlit : RegularExpression CChar :=
  oneOrMore digit * star (literal (cstr ".")) * oneOrMore digit

def intlit : RegularExpression CChar := digit * star digit

def ucn : RegularExpression CChar :=
  literal (cstr "\\u") * times xdigit 4 + literal (cstr "\\U") * times xdigit 8

def bareword : RegularExpression CChar :=
  (oneOf (cstr "_" ++ alphas) + ucn) * star (oneOf (cstr "_" ++ alphas ++ digits) + ucn)

def scalar : RegularExpression CChar := literal (cstr "$") * bareword

def hash : RegularExpression CChar := literal (cstr "%") * bareword

/-- `[0123456]{1,3}`. -/
def octal : RegularExpression CChar :=
  times (oneOf (cstr "0123456")) 1 + times (oneOf (cstr "0123456")) 2 +
    times (oneOf (cstr "0123456")) 3

/-- What `stringlit` repeats between its quotes. -/
def literalPiece : RegularExpression CChar :=
  noneOf (cstr "\"\\\n") + literal (cstr "\\") * oneOf (cstr "'\"?\\abfnrtv") +
    literal (cstr "\\") * octal + literal (cstr "\\x") * oneOrMore xdigit +
    literal (cstr "\\u") * times xdigit 4 + literal (cstr "\\U") * times xdigit 8

def stringlit : RegularExpression CChar :=
  optional (literal (cstr "L")) * literal (cstr "\"") * star literalPiece * literal (cstr "\"")

def comment : RegularExpression CChar :=
  literal (cstr "#") * star (noneOf (cstr "\n")) * literal (cstr "\n")

/-- `[ \t\n\r]`. -/
def blanks : CString := cstr " \t\n\r"

end Flex

/-! ## The rules -/

/-- A rule: a pattern, and the token its action returns for a text, or
`none` where the text is skipped. -/
structure LexRule where
  pattern : RegularExpression CChar
  action : CString → Option Token

/-- The rules whose pattern is a string. -/
def literalRules : List (CString × Token) :=
  [(cstr ">=", .nget), (cstr "<=", .nlet), (cstr "==", .eqeq), (cstr "!=", .neq),
    (cstr "(", .oparen), (cstr ")", .cparen), (cstr "\x7b", .obrace), (cstr "\x7d", .cbrace),
    (cstr "=", .equals), (cstr ";", .semi), (cstr ",", .comma), (cstr "\\", .backslash),
    (cstr ">", .ngt), (cstr "<", .nlt), (cstr "eq", .seq), (cstr "xplcmd", .xplcmd),
    (cstr "spawn", .spawn), (cstr "if", .if_), (cstr "else", .else_), (cstr "exists", .exists_)]

def Bareword.ofText (text : CString) : Option Bareword :=
  if h : text ≠ [] then some ⟨text, h⟩ else none

/-- A quoted text as a token: `L` or not, and what the quotes enclose. -/
def stringlitToken (yytext : CString) : Token :=
  if yytext.head? = some 76 then .stringlit true (yytext.drop 2).dropLast
  else .stringlit false (yytext.drop 1).dropLast

/-- The rules after those. -/
def patternRules : List LexRule :=
  [⟨Flex.scalar, fun yytext => (Bareword.ofText (yytext.drop 1)).map .scalar⟩,
    ⟨Flex.hash, fun yytext => (Bareword.ofText (yytext.drop 1)).map .hash⟩,
    ⟨Flex.bareword, fun yytext => (Bareword.ofText yytext).map .bareword⟩,
    ⟨Flex.floatlit, fun yytext => some (.floatlit yytext)⟩,
    ⟨Flex.intlit, fun yytext => some (.intlit yytext)⟩,
    ⟨Flex.stringlit, fun yytext => some (stringlitToken yytext)⟩,
    ⟨Flex.comment, fun _ => none⟩,
    ⟨oneOf Flex.blanks, fun _ => none⟩,
    ⟨Flex.noneOf (cstr "\n"), fun yytext => yytext.head?.map .badchar⟩]

/-- The rules section. -/
def lexRules : List LexRule :=
  literalRules.map (fun (text, t) => ⟨literal text, fun _ => some t⟩) ++ patternRules

def LexRule.accepts (r : LexRule) (yytext : CString) : Bool := r.pattern.rmatch yytext

theorem LexRule.accepts_iff {r : LexRule} {yytext : CString} :
    r.accepts yytext = true ↔ yytext ∈ r.pattern.matches' := rmatch_iff_matches' _ _

/-- The tokens of the pieces of a text, from line `yylineno` on. The
newlines of a piece are counted before its action. -/
def yytokens (yylineno : Int) : List (LexRule × CString) → List LexToken
  | [] => []
  | (r, yytext) :: pieces =>
    let yylineno := yylineno + (yytext.count LF : Nat)
    match r.action yytext with
    | some t => (t, yylineno) :: yytokens yylineno pieces
    | none => yytokens yylineno pieces

/-- What `yylex` returns, call by call, on a whole text. -/
def yylex (yylineno : Int) (text : CString) : List LexToken :=
  yytokens yylineno (Lib.scan LexRule.accepts lexRules text.length text)

/-! ## The characters of the patterns -/

namespace Flex

/-- The characters of `[_[:alnum:]]` and of a `ucn`. -/
def wordChars : CString := cstr "_\\" ++ alphas ++ digits

/-- What a keyword, a bareword, a `scalar` or a `hash` begins with. -/
def wordStarts : CString := cstr "$%_\\" ++ alphas

/-- The characters of a number. -/
def numberChars : CString := cstr "." ++ digits

theorem mem_allChars (c : CChar) : c ∈ allChars := by
  refine List.mem_map.mpr ⟨c.toBitVec.toNat, List.mem_range.mpr c.toBitVec.isLt, ?_⟩
  rw [← Int8.ofBitVec_ofNat, BitVec.ofNat_toNat, BitVec.setWidth_eq]
  rfl

theorem mem_noneOf {cs : CString} {c : CChar} :
    c ∈ allChars.filter (fun c => !cs.contains c) ↔ c ∉ cs := by
  rw [List.mem_filter, Bool.not_eq_true', ← Bool.not_eq_true, List.contains_iff_mem]
  exact and_iff_right (mem_allChars c)

theorem occurs_times {r : RegularExpression CChar} {n : Nat} {c : CChar}
    (h : Occurs c (times r n)) : Occurs c r := by
  induction n with
  | zero => exact h.elim
  | succ n ih => exact h.elim id ih

/-- Membership in one of the classes from membership in another, by
looking through the smaller one. -/
theorem mem_of_all {cs ds : CString} (h : cs.all ds.contains = true) {c : CChar} (hc : c ∈ cs) :
    c ∈ ds :=
  List.contains_iff_mem.mp (List.all_eq_true.mp h c hc)

theorem occurs_ucn {c : CChar} (h : Occurs c ucn) : c ∈ wordChars := by
  rcases h with (h | h) | h | h
  · exact mem_of_all (by decide) (occurs_literal.mp h)
  · exact mem_of_all (by decide) (occurs_oneOf.mp (occurs_times h))
  · exact mem_of_all (by decide) (occurs_literal.mp h)
  · exact mem_of_all (by decide) (occurs_oneOf.mp (occurs_times h))

theorem occurs_bareword {c : CChar} (h : Occurs c bareword) : c ∈ wordChars := by
  rcases h with (h | h) | h | h
  · exact mem_of_all (by decide) (occurs_oneOf.mp h)
  · exact occurs_ucn h
  · exact mem_of_all (by decide) (occurs_oneOf.mp h)
  · exact occurs_ucn h

theorem begins_bareword {c : CChar} (h : Begins c bareword) : c ∈ wordStarts := by
  rcases h with (h | h | h) | ⟨hnil, -⟩
  · exact mem_of_all (by decide) (begins_oneOf.mp h)
  · obtain rfl := eq_of_begins_literal h
    decide
  · obtain rfl := eq_of_begins_literal h
    decide
  · cases hnil

theorem begins_digits {r : RegularExpression CChar} {c : CChar} (h : Begins c (digit * r)) :
    c ∈ digits := by
  rcases h with h | ⟨hnil, -⟩
  · exact begins_oneOf.mp h
  · cases hnil

theorem begins_floatlit {c : CChar} (h : Begins c floatlit) : c ∈ digits := by
  rcases h with (h | ⟨hnil, -⟩) | ⟨hnil, -⟩
  · exact begins_digits h
  · cases hnil
  · cases hnil

theorem occurs_floatlit {c : CChar} (h : Occurs c floatlit) : c ∈ numberChars := by
  have hdigits : Occurs c (oneOrMore digit) → c ∈ numberChars :=
    fun h => mem_of_all (by decide) (occurs_oneOf.mp (h.elim id id))
  rcases h with (h | h) | h
  · exact hdigits h
  · exact mem_of_all (by decide) (occurs_literal.mp h)
  · exact hdigits h

theorem occurs_intlit {c : CChar} (h : Occurs c intlit) : c ∈ numberChars :=
  mem_of_all (by decide) (occurs_oneOf.mp (h.elim id id))

theorem mem_comment {w : CString} (h : w ∈ comment.matches') :
    ∃ body, LF ∉ body ∧ w = 35 :: body ++ [LF] := by
  obtain ⟨u, hu, v, hv, rfl⟩ := Language.mem_mul.mp h
  obtain ⟨body, hbody, rfl⟩ := mem_literal_mul.mp hu
  refine ⟨body, fun hmem => ?_, by rw [mem_literal.mp hv]; rfl⟩
  have hocc : Occurs LF (star (noneOf (cstr "\n"))) := occurs_of_mem hbody hmem
  exact mem_noneOf.mp (occurs_oneOf.mp hocc) (by decide)

end Flex

/-! ## What a text may go on with -/

open Flex

/-- The literal rules of more than one character are comparisons and
keywords. -/
theorem literalRules_long {p : CString × Token} (h : p ∈ literalRules) {a : CChar} {v : CString}
    (hp : p.1 = a :: v) (hv : v ≠ []) :
    (a ∈ wordStarts ∧ ∀ c ∈ v, c ∈ wordChars) ∨ (a ∈ cstr "><=!" ∧ v = [61]) := by
  have hall : literalRules.all (fun p => p.1.tail.isEmpty ||
      (wordStarts.contains (p.1.headD 0) && p.1.tail.all wordChars.contains) ||
      ((cstr "><=!").contains (p.1.headD 0) && p.1.tail == [61])) = true := by decide
  have hcheck := List.all_eq_true.mp hall p h
  rw [hp] at hcheck
  simp only [List.tail_cons, List.headD_cons, Bool.or_eq_true, List.isEmpty_iff, hv, false_or,
    Bool.and_eq_true, List.contains_iff_mem, List.all_eq_true, beq_iff_eq] at hcheck
  exact hcheck

/-- **The rules that match more than one character**, by the first of
them and any later one. -/
theorem runs_on {r : LexRule} (hr : r ∈ lexRules) {a c : CChar} {w u : CString}
    (h : r.accepts (a :: w ++ c :: u) = true) :
    (a ∈ wordStarts ∧ c ∈ wordChars) ∨ (a ∈ digits ∧ c ∈ numberChars) ∨
      (w = [] ∧ a ∈ cstr "><=!" ∧ c = 61) ∨ a :: w ++ c :: u ∈ stringlit.matches' ∨
      a :: w ++ c :: u ∈ comment.matches' := by
  have hmem := LexRule.accepts_iff.mp h
  rw [List.cons_append] at hmem
  have hbegins : Begins a r.pattern := begins_of_mem hmem
  have hc : c ∈ w ++ c :: u := List.mem_append_right w List.mem_cons_self
  have hoccurs : Occurs c r.pattern := occurs_of_mem hmem (List.mem_cons_of_mem a hc)
  have hlong : ∀ d, a :: (w ++ c :: u) ≠ [d] := fun d h =>
    List.ne_nil_of_mem hc (List.cons.inj h).2
  rcases List.mem_append.mp hr with hr | hr
  · obtain ⟨⟨s, t⟩, hs, rfl⟩ := List.mem_map.mp hr
    rcases literalRules_long hs (mem_literal.mp hmem).symm (List.ne_nil_of_mem hc) with h | ⟨ha, hv⟩
    · exact .inl ⟨h.1, h.2 c hc⟩
    · refine .inr (.inr (.inl ?_))
      cases w with
      | nil => exact ⟨rfl, ha, (List.cons.inj hv).1⟩
      | cons d w => exact absurd (List.cons.inj hv).2 (List.append_ne_nil_of_right_ne_nil w (List.cons_ne_nil c u))
  · simp only [patternRules, List.mem_cons, List.not_mem_nil, or_false] at hr
    rcases hr with rfl | rfl | rfl | rfl | rfl | rfl | rfl | rfl | rfl
    · obtain ⟨v, hv, hsplit⟩ := mem_literal_mul.mp hmem
      obtain ⟨rfl, rfl⟩ := List.cons.inj hsplit
      exact .inl ⟨by decide, occurs_bareword (occurs_of_mem hv hc)⟩
    · obtain ⟨v, hv, hsplit⟩ := mem_literal_mul.mp hmem
      obtain ⟨rfl, rfl⟩ := List.cons.inj hsplit
      exact .inl ⟨by decide, occurs_bareword (occurs_of_mem hv hc)⟩
    · exact .inl ⟨begins_bareword hbegins, occurs_bareword hoccurs⟩
    · exact .inr (.inl ⟨begins_floatlit hbegins, occurs_floatlit hoccurs⟩)
    · exact .inr (.inl ⟨begins_digits hbegins, occurs_intlit hoccurs⟩)
    · exact .inr (.inr (.inr (.inl hmem)))
    · exact .inr (.inr (.inr (.inr hmem)))
    · obtain ⟨d, -, hd⟩ := mem_oneOf.mp hmem
      exact absurd hd (hlong d)
    · obtain ⟨d, -, hd⟩ := mem_oneOf.mp hmem
      exact absurd hd (hlong d)

/-! ## Quoted texts -/

theorem mem_xdigits {c : CChar} : c ∈ xdigits ↔ isxdigit c = true := by
  have hall : allChars.all (fun c => xdigits.contains c == isxdigit c) = true := by decide +kernel
  have hc := beq_iff_eq.mp (List.all_eq_true.mp hall c (mem_allChars c))
  rw [← hc, List.contains_iff_mem]

theorem mem_octals {c : CChar} : c ∈ cstr "0123456" ↔ 48 ≤ c ∧ c ≤ 54 := by
  have hall : allChars.all (fun c => (cstr "0123456").contains c == decide (48 ≤ c ∧ c ≤ 54)) =
      true := by decide +kernel
  have hc := beq_iff_eq.mp (List.all_eq_true.mp hall c (mem_allChars c))
  rw [← List.contains_iff_mem, hc, decide_eq_true_eq]

theorem mem_octal {w : CString} :
    w ∈ Flex.octal.matches' ↔ (1 ≤ w.length ∧ w.length ≤ 3) ∧ ∀ c ∈ w, 48 ≤ c ∧ c ≤ 54 := by
  have hsum : w ∈ Flex.octal.matches' ↔
      (w.length = 1 ∨ w.length = 2 ∨ w.length = 3) ∧ ∀ c ∈ w, c ∈ cstr "0123456" := by
    simp only [Flex.octal, matches'_add, Language.mem_add, mem_times_oneOf, ← or_and_right, or_assoc]
  rw [hsum]
  simp only [mem_octals]
  refine and_congr_left fun _ => ?_
  omega

/-- One turn of the repetition, by the pattern and by its cases. -/
theorem mem_literalPiece {p : CString} : p ∈ Flex.literalPiece.matches' ↔ LiteralPiece p := by
  constructor
  · rintro (((((h | h) | h) | h) | h) | h)
    · obtain ⟨c, hc, rfl⟩ := mem_oneOf.mp h
      have hnot : c ∉ cstr "\"\\\n" := mem_noneOf.mp hc
      refine .char c ⟨?_, ?_, ?_⟩ <;> rintro rfl <;> exact hnot (by decide)
    · obtain ⟨v, hv, rfl⟩ := mem_literal_mul.mp h
      obtain ⟨c, hc, rfl⟩ := mem_oneOf.mp hv
      exact .escape c hc
    · obtain ⟨v, hv, rfl⟩ := mem_literal_mul.mp h
      obtain ⟨hlen, hall⟩ := mem_octal.mp hv
      exact .octal v hlen hall
    · obtain ⟨v, hv, rfl⟩ := mem_literal_mul.mp h
      obtain ⟨hne, hall⟩ := mem_oneOrMore_oneOf.mp hv
      exact .hex v (List.length_pos_iff.mpr hne) fun c hc => mem_xdigits.mp (hall c hc)
    · obtain ⟨v, hv, rfl⟩ := mem_literal_mul.mp h
      obtain ⟨hlen, hall⟩ := mem_times_oneOf.mp hv
      exact .ucn4 v hlen fun c hc => mem_xdigits.mp (hall c hc)
    · obtain ⟨v, hv, rfl⟩ := mem_literal_mul.mp h
      obtain ⟨hlen, hall⟩ := mem_times_oneOf.mp hv
      exact .ucn8 v hlen fun c hc => mem_xdigits.mp (hall c hc)
  · intro h
    cases h with
    | char c h =>
      have hnot : c ∉ cstr "\"\\\n" := by
        intro hmem
        have hcs : cstr "\"\\\n" = [34, 92, LF] := by decide
        simp only [hcs, List.mem_cons, List.not_mem_nil, or_false] at hmem
        rcases hmem with rfl | rfl | rfl
        · exact h.1 rfl
        · exact h.2.1 rfl
        · exact h.2.2 rfl
      exact .inl (.inl (.inl (.inl (.inl (mem_oneOf.mpr ⟨c, mem_noneOf.mpr hnot, rfl⟩)))))
    | escape c h =>
      have hmem := mem_literal_mul (s := cstr "\\").mpr ⟨[c], mem_oneOf.mpr ⟨c, h, rfl⟩, rfl⟩
      exact .inl (.inl (.inl (.inl (.inr hmem))))
    | octal digits hlen h =>
      have hmem := mem_literal_mul (s := cstr "\\").mpr ⟨digits, mem_octal.mpr ⟨hlen, h⟩, rfl⟩
      exact .inl (.inl (.inl (.inr hmem)))
    | hex digits hlen h =>
      have hall : ∀ c ∈ digits, c ∈ xdigits := fun c hc => mem_xdigits.mpr (h c hc)
      have hmem := mem_literal_mul (s := cstr "\\x").mpr
        ⟨digits, mem_oneOrMore_oneOf.mpr ⟨List.length_pos_iff.mp hlen, hall⟩, rfl⟩
      exact .inl (.inl (.inr hmem))
    | ucn4 digits hlen h =>
      have hall : ∀ c ∈ digits, c ∈ xdigits := fun c hc => mem_xdigits.mpr (h c hc)
      have hmem := mem_literal_mul (s := cstr "\\u").mpr
        ⟨digits, mem_times_oneOf.mpr ⟨hlen, hall⟩, rfl⟩
      exact .inl (.inr hmem)
    | ucn8 digits hlen h =>
      have hall : ∀ c ∈ digits, c ∈ xdigits := fun c hc => mem_xdigits.mpr (h c hc)
      have hmem := mem_literal_mul (s := cstr "\\U").mpr
        ⟨digits, mem_times_oneOf.mpr ⟨hlen, hall⟩, rfl⟩
      exact .inr hmem

/-- The pattern matches the quoted texts. -/
theorem mem_stringlit {w : CString} :
    w ∈ Flex.stringlit.matches' ↔ ∃ wide body, Stringlit w wide body := by
  constructor
  · intro h
    obtain ⟨front, hfront, v, hv, rfl⟩ := Language.mem_mul.mp h
    obtain ⟨opening, hopening, body, hbody, rfl⟩ := Language.mem_mul.mp hfront
    obtain ⟨pre, hpre, q, hq, rfl⟩ := Language.mem_mul.mp hopening
    rw [mem_literal.mp hv, mem_literal.mp hq]
    obtain ⟨ps, rfl, hps⟩ := Language.mem_kstar.mp hbody
    have hpieces : ∀ p ∈ ps, LiteralPiece p := fun p hp => mem_literalPiece.mp (hps p hp)
    rcases mem_optional.mp hpre with rfl | hpre
    · exact ⟨false, _, ⟨ps, hpieces, rfl⟩, rfl⟩
    · rw [mem_literal.mp hpre]
      exact ⟨true, _, ⟨ps, hpieces, rfl⟩, rfl⟩
  · rintro ⟨wide, body, ⟨ps, hps, rfl⟩, rfl⟩
    have hquote : cstr "\"" ∈ (literal (cstr "\"")).matches' := mem_literal.mpr rfl
    have hbody : ps.flatten ∈ (star Flex.literalPiece).matches' :=
      Language.mem_kstar.mpr ⟨ps, rfl, fun p hp => mem_literalPiece.mpr (hps p hp)⟩
    have hpre : (if wide then cstr "L" else []) ∈ (optional (literal (cstr "L"))).matches' := by
      cases wide with
      | false => exact mem_optional.mpr (.inl rfl)
      | true => exact mem_optional.mpr (.inr (mem_literal.mpr rfl))
    have hopening := Language.append_mem_mul hpre hquote
    exact Language.append_mem_mul (Language.append_mem_mul hopening hbody) hquote

end XplEvent.Script
