/-!
# A list held at a position of another

`Segment code i l` says that the list `code` holds `l` from position `i`
on. It is how a proof about an instruction list reads one part of it
without naming what stands before and after: a segment splits where its
list does, and its first element is the element at its position.
-/

namespace Lib

variable {α : Type _}

/-- `code` holds `l` from position `i` on. -/
def Segment (code : List α) (i : Nat) (l : List α) : Prop :=
  ∃ before after, code = before ++ l ++ after ∧ before.length = i

namespace Segment

variable {code l₁ l₂ l : List α} {i : Nat} {a : α}

theorem whole (code : List α) : Segment code 0 code :=
  ⟨[], [], by simp only [List.nil_append, List.append_nil], rfl⟩

theorem left (h : Segment code i (l₁ ++ l₂)) : Segment code i l₁ := by
  obtain ⟨before, after, rfl, hi⟩ := h
  exact ⟨before, l₂ ++ after, by simp only [List.append_assoc], hi⟩

theorem right (h : Segment code i (l₁ ++ l₂)) : Segment code (i + l₁.length) l₂ := by
  obtain ⟨before, after, rfl, hi⟩ := h
  exact ⟨before ++ l₁, after, by simp only [List.append_assoc],
    by rw [List.length_append, hi]⟩

theorem get (h : Segment code i (a :: l)) : code[i]? = some a := by
  obtain ⟨before, after, rfl, rfl⟩ := h
  rw [List.append_assoc, List.getElem?_append_right (Nat.le_refl _), Nat.sub_self]
  rfl

/-- An element of the segment is the element of the list at its position. -/
theorem getElem? {k : Nat} (h : Segment code i l) (hk : l[k]? = some a) :
    code[i + k]? = some a := by
  obtain ⟨before, after, rfl, rfl⟩ := h
  have hlt : k < l.length := (List.getElem?_eq_some_iff.mp hk).1
  rw [List.append_assoc, List.getElem?_append_right (Nat.le_add_right _ _), Nat.add_sub_cancel_left,
    List.getElem?_append_left hlt, hk]

theorem tail (h : Segment code i (a :: l)) : Segment code (i + 1) l := by
  rw [← List.singleton_append] at h
  exact h.right

theorem take_drop (h : Segment code i l) : (code.drop i).take l.length = l := by
  obtain ⟨before, after, rfl, rfl⟩ := h
  rw [List.append_assoc, List.drop_left, List.take_left]

end Segment

end Lib
