/-!
# Walks over a list with a state they share

A walk visits the elements of a list in order. Each visit reads and
rewrites a shared state, gives the element an outcome, and says whether
to go on; the elements behind the one that stops the walk are left as
they are.

When a visit leaves behind a state that the next visits read as the one
before it, the walk is a function of the single visits: an element's
outcome is the one of a visit of its own, unless an element before it
stops the walk.
-/

namespace Lib

variable {σ α β ε : Type _}

/-- The walk; `rest` is the outcome of an element that is not visited. -/
def walk (visit : σ → α → Except ε (σ × β × Bool)) (rest : α → β) :
    σ → List α → Except ε (List β)
  | _, [] => .ok []
  | s, a :: l =>
    match visit s a with
    | .error e => .error e
    | .ok (s, b, true) => (walk visit rest s l).map (b :: ·)
    | .ok (_, b, false) => .ok (b :: l.map rest)

/-- What single visits make of a list: outcomes up to the first that
stops. -/
def outcomes (f : α → β × Bool) (rest : α → β) : List α → List β
  | [] => []
  | a :: l => (f a).1 :: if (f a).2 then outcomes f rest l else l.map rest

theorem outcomes_length (f : α → β × Bool) (rest : α → β) (l : List α) :
    (outcomes f rest l).length = l.length := by
  induction l with
  | nil => rfl
  | cons a l ih =>
    unfold outcomes
    split
    · rw [List.length_cons, List.length_cons, ih]
    · rw [List.length_cons, List.length_cons, List.length_map]

/-- The outcome of an element behind others. -/
theorem outcomes_getElem? (f : α → β × Bool) (rest : α → β) (pre : List α) (a : α)
    (post : List α) : (outcomes f rest (pre ++ a :: post))[pre.length]? =
      some (if pre.all fun c => (f c).2 then (f a).1 else rest a) := by
  induction pre with
  | nil => rfl
  | cons c pre ih =>
    rw [List.cons_append, outcomes, List.length_cons, List.getElem?_cons_succ, List.all_cons]
    cases hc : (f c).2 with
    | true =>
      rw [if_pos rfl, Bool.true_and]
      exact ih
    | false =>
      rw [if_neg Bool.false_ne_true, Bool.false_and, if_neg Bool.false_ne_true,
        List.getElem?_map, List.getElem?_append_right (Nat.le_refl _), Nat.sub_self]
      rfl

/-- The places before and behind an element. -/
theorem exists_split {l : List α} {i : Nat} {a : α} (h : l[i]? = some a) :
    ∃ pre post, l = pre ++ a :: post ∧ pre.length = i := by
  obtain ⟨hlt, rfl⟩ := List.getElem?_eq_some_iff.mp h
  refine ⟨l.take i, l.drop (i + 1), ?_, ?_⟩
  · rw [← List.drop_eq_getElem_cons hlt, List.take_append_drop]
  · rw [List.length_take]
    omega

/-- **A walk over visits that do not disturb each other** is what the
single visits make of the list. -/
theorem walk_eq_outcomes {visit : σ → α → Except ε (σ × β × Bool)} {f : α → β × Bool} {s : σ}
    (h : ∀ a, ∃ s', visit s a = .ok (s', f a) ∧ visit s' = visit s) (rest : α → β)
    (l : List α) : walk visit rest s l = .ok (outcomes f rest l) := by
  suffices hsame : ∀ s', visit s' = visit s → walk visit rest s' l = .ok (outcomes f rest l) from
    hsame s rfl
  induction l with
  | nil => exact fun _ _ => rfl
  | cons a l ih =>
    intro s' hs'
    obtain ⟨s'', hvisit, hs''⟩ := h a
    have hrest := ih s'' hs''
    unfold walk outcomes
    rw [hs', hvisit]
    obtain ⟨b, go⟩ := f a
    cases go with
    | true =>
      simp only [hrest]
      rfl
    | false => rfl

/-- A walk that fails at its first element. -/
theorem walk_error {visit : σ → α → Except ε (σ × β × Bool)} {s : σ} {a : α} {e : ε}
    (h : visit s a = .error e) (rest : α → β) (l : List α) :
    walk visit rest s (a :: l) = .error e := by
  rw [walk, h]

end Lib
