import Mathlib.Order.Basic

/-!
# Sampling a counter

A counter that never goes back is read at samples. The samples at which it
shows another value than at the sample before are the changes; each value
that the counter shows behind the first sample is shown by one change.
-/

namespace Lib

variable {α β : Type _} (f : α → β)

/-- The samples that show another value than the sample before, `a` being
the one before the first. -/
def changes [DecidableEq β] : α → List α → List α
  | _, [] => []
  | a, b :: l => if f b = f a then changes b l else b :: changes b l

/-- The counter does not go back from `a` on. -/
def Climbs [LE β] : α → List α → Prop
  | _, [] => True
  | a, b :: l => f a ≤ f b ∧ Climbs b l

variable {f} [PartialOrder β] [DecidableEq β]

/-- A change shows more than the sample before the first. -/
theorem changes_gt {a : α} {l : List α} (h : Climbs f a l) : ∀ x ∈ changes f a l, f a < f x := by
  induction l generalizing a with
  | nil => exact fun x hx => absurd hx List.not_mem_nil
  | cons b l ih =>
    obtain ⟨hle, hrest⟩ := h
    unfold changes
    intro x hx
    by_cases hsame : f b = f a
    · rw [if_pos hsame] at hx
      exact lt_of_le_of_lt hle (ih hrest x hx)
    · rw [if_neg hsame] at hx
      rcases List.mem_cons.mp hx with rfl | hx
      · exact lt_of_le_of_ne hle (Ne.symm hsame)
      · exact lt_of_le_of_lt hle (ih hrest x hx)

/-- No change shows the value of the sample before the first. -/
theorem countP_changes_self {a : α} {l : List α} (h : Climbs f a l) :
    (changes f a l).countP (fun y => f y = f a) = 0 := by
  rw [List.countP_eq_zero]
  intro x hx
  have hne := (changes_gt h x hx).ne'
  rwa [decide_eq_true_iff]

/-- **Every other value is shown by one change.** -/
theorem countP_changes {a x : α} {l : List α} (h : Climbs f a l) (hx : x ∈ l) (hne : f x ≠ f a) :
    (changes f a l).countP (fun y => f y = f x) = 1 := by
  induction l generalizing a with
  | nil => exact absurd hx List.not_mem_nil
  | cons b l ih =>
    obtain ⟨-, hrest⟩ := h
    unfold changes
    by_cases hsame : f b = f a
    · rw [if_pos hsame]
      have hl : x ∈ l := by
        rcases List.mem_cons.mp hx with rfl | hl
        · exact absurd hsame hne
        · exact hl
      apply ih hrest hl
      rw [hsame]
      exact hne
    · rw [if_neg hsame]
      by_cases hfirst : f x = f b
      · rw [hfirst, List.countP_cons, countP_changes_self hrest, if_pos (decide_eq_true rfl)]
      · have hl : x ∈ l := by
          rcases List.mem_cons.mp hx with rfl | hl
          · exact absurd rfl hfirst
          · exact hl
        have hother : ¬ decide (f b = f x) = true := by
          rw [decide_eq_true_iff]
          exact Ne.symm hfirst
        rw [List.countP_cons, if_neg hother]
        exact ih hrest hl hfirst

end Lib
