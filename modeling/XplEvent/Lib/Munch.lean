/-!
# Lexing by the longest match

A text is cut into pieces by a list of rules: at each place the rule that
accepts most characters takes them, and of several that accept as many
the first. `munch` finds the rule and the length, `scan` goes through the
text. `Munched` says what the choice is without computing it, and
`scan_eq_iff` what a text is cut into.

`Apart` is how a proof gets to the choice: no rule accepts a piece and
something more of what follows it (`munched_append_iff`).
-/

namespace Lib

variable {α R : Type _}

/-- The length of the longest beginning of `s` that is accepted, of at
most `n` characters, or 0. -/
def longest (accepts : List α → Bool) (s : List α) : Nat → Nat
  | 0 => 0
  | n + 1 => if accepts (s.take (n + 1)) then n + 1 else longest accepts s n

theorem longest_spec (accepts : List α → Bool) (s : List α) (n : Nat) :
    longest accepts s n ≤ n ∧
      (0 < longest accepts s n → accepts (s.take (longest accepts s n)) = true) ∧
      ∀ m, longest accepts s n < m → m ≤ n → accepts (s.take m) = false := by
  induction n with
  | zero => exact ⟨Nat.le_refl 0, fun h => absurd h (Nat.lt_irrefl 0), fun m hm hle => by omega⟩
  | succ n ih =>
    obtain ⟨hle, haccepts, hmore⟩ := ih
    rw [longest]
    split
    · rename_i htake
      exact ⟨Nat.le_refl _, fun _ => htake, fun m hm hle => by omega⟩
    · rename_i htake
      refine ⟨Nat.le_succ_of_le hle, haccepts, fun m hm hmn => ?_⟩
      rcases Nat.lt_or_eq_of_le hmn with hlt | rfl
      · exact hmore m hm (Nat.le_of_lt_succ hlt)
      · exact Bool.eq_false_iff.mpr htake

section

variable (accepts : R → List α → Bool)

/-- The rule that takes the next piece of a text, and the piece's length. -/
def munch (s : List α) : List R → Option (R × Nat)
  | [] => none
  | r :: rules =>
    let n := longest (accepts r) s s.length
    match munch s rules with
    | none => if n = 0 then none else some (r, n)
    | some (r', m) => if n < m then some (r', m) else some (r, n)

/-- The text in pieces, each with the rule that took it. -/
def scan (rules : List R) : Nat → List α → List (R × List α)
  | 0, _ => []
  | fuel + 1, s =>
    match munch accepts s rules with
    | none => []
    | some (r, n) => (r, s.take n) :: scan rules fuel (s.drop n)

/-- `r` takes the first `n` characters of `s`. -/
structure Munched (rules : List R) (s : List α) (r : R) (n : Nat) : Prop where
  pos : 0 < n
  le : n ≤ s.length
  accepted : accepts r (s.take n) = true
  first : ∃ before after, rules = before ++ r :: after ∧
    ∀ r' ∈ before, accepts r' (s.take n) = false
  longest : ∀ r' ∈ rules, ∀ m, n < m → m ≤ s.length → accepts r' (s.take m) = false

end

variable {accepts : R → List α → Bool} {rules : List R} {s : List α}

/-- Where nothing is chosen, no rule accepts anything. -/
theorem munch_none (h : munch accepts s rules = none) :
    ∀ r ∈ rules, ∀ m, 0 < m → m ≤ s.length → accepts r (s.take m) = false := by
  induction rules with
  | nil => exact fun r hr => absurd hr List.not_mem_nil
  | cons r rules ih =>
    rw [munch] at h
    obtain ⟨-, -, hmore⟩ := longest_spec (accepts r) s s.length
    split at h
    · rename_i hrest
      split at h
      · rename_i hzero
        rw [hzero] at hmore
        exact List.forall_mem_cons.mpr ⟨hmore, ih hrest⟩
      · cases h
    · split at h <;> cases h

/-- **What is chosen.** -/
theorem munched_of_munch {r : R} {n : Nat} (h : munch accepts s rules = some (r, n)) :
    Munched accepts rules s r n := by
  induction rules generalizing r n with
  | nil => cases h
  | cons r₀ rules ih =>
    rw [munch] at h
    obtain ⟨hle, haccepts, hmore⟩ := longest_spec (accepts r₀) s s.length
    split at h
    · rename_i hrest
      split at h
      · cases h
      · rename_i hpos
        cases h
        have hpos := Nat.pos_of_ne_zero hpos
        refine ⟨hpos, hle, haccepts hpos, ⟨[], rules, rfl, fun _ h => absurd h List.not_mem_nil⟩,
          List.forall_mem_cons.mpr ⟨hmore, fun r' hr' m hm => ?_⟩⟩
        exact munch_none hrest r' hr' m (Nat.zero_lt_of_lt hm)
    · rename_i r' m hrest
      obtain ⟨hpos', hle', haccepts', ⟨before, after, hsplit, hfirst⟩, hmore'⟩ := ih hrest
      split at h
      · rename_i hlt
        cases h
        refine ⟨hpos', hle', haccepts', ⟨r₀ :: before, after, by rw [hsplit]; rfl,
          List.forall_mem_cons.mpr ⟨hmore n hlt hle', hfirst⟩⟩,
          List.forall_mem_cons.mpr ⟨fun k hk => hmore k (Nat.lt_trans hlt hk), hmore'⟩⟩
      · rename_i hge
        cases h
        have hpos := Nat.lt_of_lt_of_le hpos' (Nat.le_of_not_lt hge)
        refine ⟨hpos, hle, haccepts hpos, ⟨[], rules, rfl, fun _ h => absurd h List.not_mem_nil⟩,
          List.forall_mem_cons.mpr ⟨hmore, fun r' hr' k hk => ?_⟩⟩
        exact hmore' r' hr' k (Nat.lt_of_le_of_lt (Nat.le_of_not_lt hge) hk)

/-- There is no other choice. -/
theorem Munched.unique {r r' : R} {n n' : Nat} (h : Munched accepts rules s r n)
    (h' : Munched accepts rules s r' n') : r' = r ∧ n' = n := by
  have hmem : ∀ {r n}, Munched accepts rules s r n → r ∈ rules := by
    intro r n h
    obtain ⟨before, after, rfl, -⟩ := h.first
    exact List.mem_append_right before List.mem_cons_self
  have hlen : n' = n := by
    rcases Nat.lt_trichotomy n' n with hlt | heq | hlt
    · exact absurd h.accepted (Bool.eq_false_iff.mp (h'.longest r (hmem h) n hlt h.le))
    · exact heq
    · exact absurd h'.accepted (Bool.eq_false_iff.mp (h.longest r' (hmem h') n' hlt h'.le))
  subst hlen
  obtain ⟨before, after, hsplit, hfirst⟩ := h.first
  obtain ⟨before', after', hsplit', hfirst'⟩ := h'.first
  refine ⟨?_, rfl⟩
  rw [hsplit] at hsplit'
  -- neither rule stands before the other
  rcases List.append_eq_append_iff.mp hsplit' with ⟨mid, rfl, hmid⟩ | ⟨mid, rfl, hmid⟩
  · cases mid with
    | nil => exact (List.cons.inj hmid).1.symm
    | cons r₁ mid =>
      obtain ⟨rfl, -⟩ := List.cons.inj hmid
      have hno := hfirst' r (List.mem_append_right before List.mem_cons_self)
      exact absurd h.accepted (Bool.eq_false_iff.mp hno)
  · cases mid with
    | nil => exact (List.cons.inj hmid).1
    | cons r₁ mid =>
      obtain ⟨rfl, -⟩ := List.cons.inj hmid
      have hno := hfirst r' (List.mem_append_right before' List.mem_cons_self)
      exact absurd h'.accepted (Bool.eq_false_iff.mp hno)

/-- The choice is computed. -/
theorem munch_of_munched {r : R} {n : Nat} (h : Munched accepts rules s r n) :
    munch accepts s rules = some (r, n) := by
  cases hmunch : munch accepts s rules with
  | none =>
    obtain ⟨before, after, hsplit, -⟩ := h.first
    have hmem : r ∈ rules := hsplit ▸ List.mem_append_right before List.mem_cons_self
    have hno := munch_none hmunch r hmem n h.pos h.le
    exact absurd h.accepted (Bool.eq_false_iff.mp hno)
  | some choice =>
    obtain ⟨r', n'⟩ := choice
    obtain ⟨rfl, rfl⟩ := h.unique (munched_of_munch hmunch)
    rfl

/-! ## The whole text -/

variable (accepts rules) in
/-- A text cut into pieces by the longest match. -/
inductive Cut : List α → List (R × List α) → Prop
  | nil : Cut [] []
  | cons {r : R} {w rest : List α} {pieces : List (R × List α)} :
    Munched accepts rules (w ++ rest) r w.length → Cut rest pieces →
      Cut (w ++ rest) ((r, w) :: pieces)

/-- Nothing is left out. -/
theorem Cut.flatten {pieces : List (R × List α)} (h : Cut accepts rules s pieces) :
    (pieces.map Prod.snd).flatten = s := by
  induction h with
  | nil => rfl
  | cons _ _ ih => rw [List.map_cons, List.flatten_cons, ih]

theorem scan_of_cut {pieces : List (R × List α)} (h : Cut accepts rules s pieces) {fuel : Nat}
    (hfuel : s.length ≤ fuel) : scan accepts rules fuel s = pieces := by
  induction h generalizing fuel with
  | nil =>
    cases fuel with
    | zero => rfl
    | succ fuel =>
      rw [scan]
      cases hmunch : munch accepts [] rules with
      | none => rfl
      | some choice =>
        have hm := munched_of_munch (r := choice.1) (n := choice.2) hmunch
        exact absurd (Nat.lt_of_lt_of_le hm.pos hm.le) (Nat.lt_irrefl 0)
  | @cons r w rest pieces hm _ ih =>
    cases fuel with
    | zero =>
      have hle := hm.pos
      rw [List.length_append] at hfuel
      omega
    | succ fuel =>
      have hpos := hm.pos
      rw [List.length_append] at hfuel
      rw [scan, munch_of_munched hm]
      dsimp only
      rw [List.take_left, List.drop_left, ih (by omega)]

/-- Every text with a character in it begins with something accepted. -/
def Total (accepts : R → List α → Bool) (rules : List R) : Prop :=
  ∀ (a : α) (s : List α), ∃ r ∈ rules, ∃ m, 0 < m ∧ m ≤ (a :: s).length ∧
    accepts r ((a :: s).take m) = true

/-- Any text is cut into pieces. -/
theorem cut_scan (htotal : Total accepts rules) {fuel : Nat} (hfuel : s.length ≤ fuel) :
    Cut accepts rules s (scan accepts rules fuel s) := by
  induction fuel generalizing s with
  | zero =>
    obtain rfl := List.length_eq_zero_iff.mp (Nat.le_zero.mp hfuel)
    exact .nil
  | succ fuel ih =>
    cases s with
    | nil =>
      rw [scan_of_cut .nil (Nat.zero_le _)]
      exact .nil
    | cons a s =>
      rw [scan]
      cases hmunch : munch accepts (a :: s) rules with
      | none =>
        obtain ⟨r, hr, m, hpos, hle, hyes⟩ := htotal a s
        exact absurd hyes (Bool.eq_false_iff.mp (munch_none hmunch r hr m hpos hle))
      | some choice =>
        obtain ⟨r, n⟩ := choice
        have hm := munched_of_munch hmunch
        have hlen : ((a :: s).take n).length = n := List.length_take_of_le hm.le
        have hdrop : ((a :: s).drop n).length ≤ fuel := by
          have hpos := hm.pos
          rw [List.length_drop]
          omega
        have hm' : Munched accepts rules ((a :: s).take n ++ (a :: s).drop n) r
            ((a :: s).take n).length := by
          rw [List.take_append_drop, hlen]
          exact hm
        have hcut := Cut.cons hm' (ih hdrop)
        rwa [List.take_append_drop] at hcut

/-! ## Pieces that do not run on -/

variable (accepts rules) in
/-- No rule accepts `w` and more of what follows it. -/
def Apart (w rest : List α) : Prop :=
  ∀ r ∈ rules, ∀ u v, rest = u ++ v → u ≠ [] → accepts r (w ++ u) = false

/-- A piece is taken by the first rule that accepts it, where it does not
run on. -/
theorem Apart.munched {w rest : List α} (h : Apart accepts rules w rest) (hne : w ≠ []) {r : R}
    {before after : List R} (hsplit : rules = before ++ r :: after)
    (hbefore : ∀ r' ∈ before, accepts r' w = false) (hr : accepts r w = true) :
    Munched accepts rules (w ++ rest) r w.length where
  pos := List.length_pos_iff.mpr hne
  le := by rw [List.length_append]; exact Nat.le_add_right _ _
  accepted := by rw [List.take_left]; exact hr
  first := ⟨before, after, hsplit, by rw [List.take_left]; exact hbefore⟩
  longest := by
    intro r' hr' m hlt hle
    rw [List.length_append] at hle
    have htake : (w ++ rest).take m = w ++ rest.take (m - w.length) := by
      rw [List.take_append, List.take_of_length_le (Nat.le_of_lt hlt)]
    have hmore : rest.take (m - w.length) ≠ [] := by
      refine List.ne_nil_of_length_pos ?_
      rw [List.length_take_of_le (by omega)]
      omega
    rw [htake]
    exact h r' hr' _ _ (List.take_append_drop (m - w.length) rest).symm hmore

/-- A text that some rule accepts is taken as a whole when it stands alone. -/
theorem exists_munched {w : List α} (hne : w ≠ []) {r : R} (hr : r ∈ rules)
    (haccepts : accepts r w = true) : ∃ r', Munched accepts rules w r' w.length := by
  cases hmunch : munch accepts w rules with
  | none =>
    have hno := munch_none hmunch r hr w.length (List.length_pos_iff.mpr hne) (Nat.le_refl _)
    rw [List.take_length] at hno
    exact absurd haccepts (Bool.eq_false_iff.mp hno)
  | some choice =>
    have hm := munched_of_munch (r := choice.1) (n := choice.2) hmunch
    rcases Nat.lt_or_eq_of_le hm.le with hlt | heq
    · have hno := hm.longest r hr w.length hlt (Nat.le_refl _)
      rw [List.take_length] at hno
      exact absurd haccepts (Bool.eq_false_iff.mp hno)
    · exact ⟨choice.1, heq ▸ hm⟩

/-- **A piece is taken from a text when it is taken as a whole and does
not run on.** -/
theorem munched_append_iff {w rest : List α} {r : R} :
    Munched accepts rules (w ++ rest) r w.length ↔
      Munched accepts rules w r w.length ∧ Apart accepts rules w rest := by
  constructor
  · rintro ⟨hpos, hle, hacc, ⟨before, after, hsplit, hbefore⟩, hmore⟩
    rw [List.take_left] at hacc hbefore
    refine ⟨⟨hpos, Nat.le_refl _, ?_, ⟨before, after, hsplit, ?_⟩, fun r' _ m hm hle => ?_⟩, ?_⟩
    · rwa [List.take_length]
    · rwa [List.take_length]
    · omega
    · rintro r' hr' u v rfl hne
      have hu := List.length_pos_iff.mpr hne
      have htake : (w ++ (u ++ v)).take (w.length + u.length) = w ++ u := by
        rw [← List.append_assoc, ← List.length_append, List.take_left]
      have hno := hmore r' hr' (w.length + u.length) (by omega)
        (by simp only [List.length_append]; omega)
      rwa [htake] at hno
  · rintro ⟨⟨hpos, -, hacc, ⟨before, after, hsplit, hbefore⟩, -⟩, hapart⟩
    rw [List.take_length] at hacc hbefore
    exact hapart.munched (List.length_pos_iff.mp hpos) hsplit hbefore hacc

theorem apart_nil (w : List α) : Apart accepts rules w [] :=
  fun _ _ _ _ h hne => absurd (List.append_eq_nil_iff.mp h.symm).1 hne

end Lib
