import Mathlib.Computability.RegularExpressions

/-!
# Patterns by their characters

Character classes, strings and counted repetitions over Mathlib's regular
expressions, and two things that can be read off an expression without
matching: the characters that occur in its words and those a word can
begin with. A text with another character in it, or in front, is none of
its words.
-/

namespace Lib.Pattern

open RegularExpression

variable {α : Type _}

/-- A character class. -/
def oneOf (cs : List α) : RegularExpression α := cs.foldr (fun c r => char c + r) 0

/-- A string. -/
def literal (s : List α) : RegularExpression α := s.foldr (fun c r => char c * r) 1

/-- `r+`. -/
def oneOrMore (r : RegularExpression α) : RegularExpression α := r * star r

/-- `r?`. -/
def optional (r : RegularExpression α) : RegularExpression α := 1 + r

/-- `r{n}`. -/
def times (r : RegularExpression α) : Nat → RegularExpression α
  | 0 => 1
  | n + 1 => r * times r n

/-! ## Their words -/

theorem mem_oneOf {cs : List α} {w : List α} :
    w ∈ (oneOf cs).matches' ↔ ∃ c ∈ cs, w = [c] := by
  induction cs with
  | nil => exact ⟨fun h => absurd h (Language.notMem_zero w), fun ⟨_, h, _⟩ => absurd h List.not_mem_nil⟩
  | cons c cs ih =>
    have hcons : (oneOf (c :: cs)).matches' = (char c).matches' + (oneOf cs).matches' := rfl
    rw [hcons, Language.mem_add, ih]
    constructor
    · rintro (hw | ⟨d, hd, hw⟩)
      · exact ⟨c, List.mem_cons_self, hw⟩
      · exact ⟨d, List.mem_cons_of_mem c hd, hw⟩
    · rintro ⟨d, hd, hw⟩
      rcases List.mem_cons.mp hd with rfl | hd
      · exact .inl hw
      · exact .inr ⟨d, hd, hw⟩

theorem mem_literal {s w : List α} : w ∈ (literal s).matches' ↔ w = s := by
  induction s generalizing w with
  | nil => exact Language.mem_one w
  | cons c s ih =>
    have hcons : (literal (c :: s)).matches' = (char c).matches' * (literal s).matches' := rfl
    rw [hcons, Language.mem_mul]
    constructor
    · rintro ⟨u, rfl, v, hv, rfl⟩
      rw [ih.mp hv]
      rfl
    · rintro rfl
      exact ⟨[c], rfl, s, ih.mpr rfl, rfl⟩

/-- A string and then a pattern. -/
theorem mem_literal_mul {s : List α} {r : RegularExpression α} {w : List α} :
    w ∈ (literal s * r).matches' ↔ ∃ v ∈ r.matches', w = s ++ v := by
  rw [matches'_mul, Language.mem_mul]
  constructor
  · rintro ⟨u, hu, v, hv, rfl⟩
    exact ⟨v, hv, by rw [mem_literal.mp hu]⟩
  · rintro ⟨v, hv, rfl⟩
    exact ⟨s, mem_literal.mpr rfl, v, hv, rfl⟩

theorem mem_optional {r : RegularExpression α} {w : List α} :
    w ∈ (optional r).matches' ↔ w = [] ∨ w ∈ r.matches' := Iff.rfl

/-- Words of a class, of one length. -/
theorem mem_times_oneOf {cs : List α} {n : Nat} {w : List α} :
    w ∈ (times (oneOf cs) n).matches' ↔ w.length = n ∧ ∀ c ∈ w, c ∈ cs := by
  induction n generalizing w with
  | zero =>
    rw [List.length_eq_zero_iff]
    constructor
    · intro h
      obtain rfl := (Language.mem_one w).mp h
      exact ⟨rfl, fun _ hc => absurd hc List.not_mem_nil⟩
    · exact fun h => (Language.mem_one w).mpr h.1
  | succ n ih =>
    have hsucc : (times (oneOf cs) (n + 1)).matches' =
        (oneOf cs).matches' * (times (oneOf cs) n).matches' := rfl
    rw [hsucc, Language.mem_mul]
    constructor
    · rintro ⟨u, hu, v, hv, rfl⟩
      obtain ⟨c, hc, rfl⟩ := mem_oneOf.mp hu
      obtain ⟨hlen, hall⟩ := ih.mp hv
      exact ⟨congrArg (· + 1) hlen, List.forall_mem_cons.mpr ⟨hc, hall⟩⟩
    · rintro ⟨hlen, hall⟩
      cases w with
      | nil => cases hlen
      | cons c w =>
        obtain ⟨hc, hall⟩ := List.forall_mem_cons.mp hall
        exact ⟨[c], mem_oneOf.mpr ⟨c, hc, rfl⟩, w, ih.mpr ⟨Nat.succ.inj hlen, hall⟩, rfl⟩

/-- Words of a class, of any length. -/
theorem mem_star_oneOf {cs : List α} {w : List α} :
    w ∈ (star (oneOf cs)).matches' ↔ ∀ c ∈ w, c ∈ cs := by
  rw [matches'_star, Language.mem_kstar]
  constructor
  · rintro ⟨ws, rfl, hws⟩ c hc
    obtain ⟨v, hv, hcv⟩ := List.mem_flatten.mp hc
    obtain ⟨d, hd, rfl⟩ := mem_oneOf.mp (hws v hv)
    rwa [List.mem_singleton.mp hcv]
  · intro h
    refine ⟨w.map ([·]), ?_, fun v hv => ?_⟩
    · rw [← List.flatMap_def, List.flatMap_singleton']
    · obtain ⟨c, hc, rfl⟩ := List.mem_map.mp hv
      exact mem_oneOf.mpr ⟨c, h c hc, rfl⟩

theorem mem_oneOrMore_oneOf {cs : List α} {w : List α} :
    w ∈ (oneOrMore (oneOf cs)).matches' ↔ w ≠ [] ∧ ∀ c ∈ w, c ∈ cs := by
  have hmul : (oneOrMore (oneOf cs)).matches' = (oneOf cs).matches' * (star (oneOf cs)).matches' :=
    rfl
  rw [hmul, Language.mem_mul]
  constructor
  · rintro ⟨u, hu, v, hv, rfl⟩
    obtain ⟨c, hc, rfl⟩ := mem_oneOf.mp hu
    exact ⟨List.cons_ne_nil c v, List.forall_mem_cons.mpr ⟨hc, mem_star_oneOf.mp hv⟩⟩
  · rintro ⟨hne, hall⟩
    cases w with
    | nil => exact absurd rfl hne
    | cons c w =>
      obtain ⟨hc, hall⟩ := List.forall_mem_cons.mp hall
      exact ⟨[c], mem_oneOf.mpr ⟨c, hc, rfl⟩, w, mem_star_oneOf.mpr hall, rfl⟩

/-! ## The characters of a word -/

/-- `a` stands somewhere in the expression. -/
def Occurs (a : α) : RegularExpression α → Prop
  | .zero | .epsilon => False
  | .char b => a = b
  | .plus r s | .comp r s => Occurs a r ∨ Occurs a s
  | .star r => Occurs a r

/-- A word may begin with `a`. -/
def Begins (a : α) : RegularExpression α → Prop
  | .zero | .epsilon => False
  | .char b => a = b
  | .plus r s => Begins a r ∨ Begins a s
  | .comp r s => Begins a r ∨ (r.matchEpsilon = true ∧ Begins a s)
  | .star r => Begins a r

instance decidableOccurs [DecidableEq α] (a : α) : (r : RegularExpression α) → Decidable (Occurs a r)
  | .zero | .epsilon => .isFalse id
  | .char b => decEq a b
  | .plus r s | .comp r s =>
    have := decidableOccurs a r
    have := decidableOccurs a s
    inferInstanceAs (Decidable (_ ∨ _))
  | .star r => decidableOccurs a r

theorem occurs_of_mem {r : RegularExpression α} {w : List α} {a : α} (h : w ∈ r.matches')
    (ha : a ∈ w) : Occurs a r := by
  induction r generalizing w with
  | zero => exact absurd h (Language.notMem_zero w)
  | epsilon =>
    obtain rfl := (Language.mem_one w).mp h
    exact absurd ha List.not_mem_nil
  | char b =>
    obtain rfl : w = [b] := h
    exact List.mem_singleton.mp ha
  | plus r s ihr ihs => exact h.imp (ihr · ha) (ihs · ha)
  | comp r s ihr ihs =>
    obtain ⟨u, hu, v, hv, rfl⟩ := Language.mem_mul.mp h
    exact (List.mem_append.mp ha).imp (ihr hu) (ihs hv)
  | star r ih =>
    obtain ⟨ws, rfl, hws⟩ := Language.mem_kstar.mp h
    obtain ⟨v, hv, hav⟩ := List.mem_flatten.mp ha
    exact ih (hws v hv) hav

theorem matchEpsilon_of_nil {r : RegularExpression α} (h : [] ∈ r.matches') :
    r.matchEpsilon = true := by
  induction r with
  | zero => exact absurd h (Language.notMem_zero [])
  | epsilon => rfl
  | char b => cases (h : [] = [b])
  | plus r s ihr ihs => exact Bool.or_eq_true_iff.mpr (h.imp ihr ihs)
  | comp r s ihr ihs =>
    obtain ⟨u, hu, v, hv, huv⟩ := Language.mem_mul.mp h
    obtain ⟨rfl, rfl⟩ := List.append_eq_nil_iff.mp huv
    exact Bool.and_eq_true_iff.mpr ⟨ihr hu, ihs hv⟩
  | star r _ => rfl

theorem begins_of_mem {r : RegularExpression α} {w : List α} {a : α} (h : a :: w ∈ r.matches') :
    Begins a r := by
  induction r generalizing w with
  | zero => exact absurd h (Language.notMem_zero _)
  | epsilon => cases (Language.mem_one _).mp h
  | char b => exact (List.cons.inj (h : a :: w = [b])).1
  | plus r s ihr ihs => exact h.imp ihr ihs
  | comp r s ihr ihs =>
    obtain ⟨u, hu, v, hv, huv⟩ := Language.mem_mul.mp h
    cases u with
    | nil =>
      obtain rfl : v = a :: w := huv
      exact .inr ⟨matchEpsilon_of_nil hu, ihs hv⟩
    | cons b u =>
      obtain ⟨rfl, -⟩ := List.cons.inj huv
      exact .inl (ihr hu)
  | star r ih =>
    obtain ⟨ws, hflat, hws⟩ := Language.mem_kstar_iff_exists_nonempty.mp h
    cases ws with
    | nil => cases hflat
    | cons u ws =>
      obtain ⟨hu, hne⟩ := hws u List.mem_cons_self
      cases u with
      | nil => exact absurd rfl hne
      | cons b u =>
        obtain ⟨rfl, -⟩ := List.cons.inj hflat
        exact ih hu

@[simp] theorem occurs_oneOf {cs : List α} {a : α} : Occurs a (oneOf cs) ↔ a ∈ cs := by
  induction cs with
  | nil => exact ⟨False.elim, fun h => absurd h List.not_mem_nil⟩
  | cons c cs ih => rw [List.mem_cons, ← ih]; rfl

@[simp] theorem begins_oneOf {cs : List α} {a : α} : Begins a (oneOf cs) ↔ a ∈ cs := by
  induction cs with
  | nil => exact ⟨False.elim, fun h => absurd h List.not_mem_nil⟩
  | cons c cs ih => rw [List.mem_cons, ← ih]; rfl

theorem eq_of_begins_literal {b : α} {s : List α} {r : RegularExpression α} {a : α}
    (h : Begins a (literal (b :: s) * r)) : a = b := by
  rcases h with (h | ⟨hnil, -⟩) | ⟨hnil, -⟩
  · exact h
  · cases hnil
  · cases hnil

@[simp] theorem occurs_literal {s : List α} {a : α} : Occurs a (literal s) ↔ a ∈ s := by
  induction s with
  | nil => exact ⟨False.elim, fun h => absurd h List.not_mem_nil⟩
  | cons c s ih => rw [List.mem_cons, ← ih]; rfl

end Lib.Pattern
