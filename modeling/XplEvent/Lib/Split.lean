/-!
# Splitting a list at the first element of a kind

A list that has an element with a property `p` is a part without one, that
element, and the rest, in one way only. `splitAt?` finds the parts for a
decidable `p`.
-/

namespace Lib

variable {α : Type _}

/-- The first element with `p` marks a list's only such splitting. -/
theorem split_first {p : α → Prop} {a a' b b' : List α} {x x' : α} (ha : ∀ c ∈ a, ¬ p c) (hx : p x)
    (ha' : ∀ c ∈ a', ¬ p c) (hx' : p x') (h : a ++ x :: b = a' ++ x' :: b') :
    a = a' ∧ x = x' ∧ b = b' := by
  induction a generalizing a' with
  | nil =>
    cases a' with
    | nil =>
      cases h
      exact ⟨rfl, rfl, rfl⟩
    | cons c a' =>
      cases h
      exact absurd hx (ha' x List.mem_cons_self)
  | cons c a ih =>
    cases a' with
    | nil =>
      cases h
      exact absurd hx' (ha x' List.mem_cons_self)
    | cons c' a' =>
      rw [List.cons_append, List.cons_append, List.cons.injEq] at h
      obtain ⟨rfl, rfl, rfl⟩ := ih (fun d hd => ha d (List.mem_cons_of_mem _ hd))
        (fun d hd => ha' d (List.mem_cons_of_mem _ hd)) h.2
      exact ⟨by rw [h.1], rfl, rfl⟩

/-- The part before the first element with `p` and the part after it. -/
def splitAt? (p : α → Bool) : List α → Option (List α × List α)
  | [] => none
  | c :: l => if p c then some ([], l) else (splitAt? p l).map fun (a, b) => (c :: a, b)

theorem splitAt?_append {p : α → Bool} {a : List α} {x : α} (ha : ∀ c ∈ a, p c = false)
    (hx : p x = true) (b : List α) : splitAt? p (a ++ x :: b) = some (a, b) := by
  induction a with
  | nil => simp only [List.nil_append, splitAt?, hx, if_true]
  | cons c a ih =>
    simp only [List.cons_append, splitAt?, ha c List.mem_cons_self, Bool.false_eq_true, if_false,
      ih fun d hd => ha d (List.mem_cons_of_mem _ hd), Option.map_some]

/-- A list that is not split has no element of the kind. -/
theorem splitAt?_none {p : α → Bool} {l : List α} (h : splitAt? p l = none) :
    ∀ c ∈ l, p c = false := by
  induction l with
  | nil => exact fun c hc => absurd hc List.not_mem_nil
  | cons c l ih =>
    rw [splitAt?] at h
    split at h
    · cases h
    · rename_i hc
      intro d hd
      rcases List.mem_cons.mp hd with rfl | hd
      · exact Bool.not_eq_true _ ▸ hc
      · exact ih (Option.map_eq_none_iff.mp h) d hd

/-- The parts that are found make up the list. -/
theorem splitAt?_ok {p : α → Bool} {l a b : List α} (h : splitAt? p l = some (a, b)) :
    ∃ x, l = a ++ x :: b ∧ p x = true ∧ ∀ c ∈ a, p c = false := by
  induction l generalizing a with
  | nil => cases h
  | cons c l ih =>
    rw [splitAt?] at h
    split at h
    · rename_i hc
      cases h
      exact ⟨c, rfl, hc, fun d hd => absurd hd List.not_mem_nil⟩
    · rename_i hc
      obtain ⟨⟨a', b'⟩, hfound, hab⟩ := Option.map_eq_some_iff.mp h
      cases hab
      obtain ⟨x, hl, hx, ha'⟩ := ih hfound
      refine ⟨x, congrArg (c :: ·) hl, hx, fun d hd => ?_⟩
      rcases List.mem_cons.mp hd with rfl | hd
      · exact Bool.not_eq_true _ ▸ hc
      · exact ha' d hd

end Lib
