/-!
# A block of memory of a fixed size

`Memory α n` is `n` cells. A write puts a list of values at an offset and
is only possible where the cells are, so a program that comes through has
written nothing elsewhere. What a write leaves is said by its front: the
cells before the offset as they were, then the values.
-/

namespace Lib

variable {α : Type _} {n : Nat}

/-- A block of `n` cells. -/
structure Memory (α : Type _) (n : Nat) where
  cells : List α
  size_eq : cells.length = n

/-- The values written at an offset; `none` when they do not all fit. -/
def Memory.write (m : Memory α n) (offset : Nat) (values : List α) : Option (Memory α n) :=
  if h : offset + values.length ≤ n then
    some ⟨m.cells.take offset ++ values ++ m.cells.drop (offset + values.length), by
      rw [List.length_append, List.length_append, List.length_take, List.length_drop, m.size_eq]
      omega⟩
  else none

/-- The first `k` cells. -/
def Memory.front (m : Memory α n) (k : Nat) : List α := m.cells.take k

theorem Memory.front_length (m : Memory α n) {k : Nat} (h : k ≤ n) : (m.front k).length = k := by
  rw [front, List.length_take, m.size_eq, Nat.min_eq_left h]

/-- A write inside the block extends the front before it by its values. -/
theorem Memory.write_ok (m : Memory α n) {offset : Nat} {values : List α}
    (h : offset + values.length ≤ n) :
    ∃ m' : Memory α n, m.write offset values = some m' ∧
      m'.front (offset + values.length) = m.front offset ++ values := by
  refine ⟨_, dif_pos h, ?_⟩
  have hlen : (m.cells.take offset ++ values).length = offset + values.length := by
    rw [List.length_append, List.length_take, m.size_eq, Nat.min_eq_left (by omega)]
  exact List.take_left' hlen

/-- Cells are written over by as many values. -/
theorem Memory.write_over {m : Memory α n} {front old rest : List α}
    (h : m.cells = front ++ (old ++ rest)) {values : List α} (hlen : values.length = old.length) :
    ∃ m' : Memory α n, m.write front.length values = some m' ∧
      m'.cells = front ++ (values ++ rest) := by
  have hsize : (front ++ (old ++ rest)).length = n := h ▸ m.size_eq
  rw [List.length_append, List.length_append] at hsize
  have hle : front.length + values.length ≤ n := by omega
  refine ⟨_, dif_pos hle, ?_⟩
  show m.cells.take front.length ++ values ++ m.cells.drop (front.length + values.length) = _
  rw [h, List.take_left, hlen, List.append_assoc, ← List.drop_drop, List.drop_left, List.drop_left]

/-- A value that has been written is the cell behind the front. -/
theorem Memory.getElem?_of_front {m : Memory α n} {k : Nat} {l : List α} {a : α}
    (h : m.front (k + 1) = l ++ [a]) (hk : l.length = k) : m.cells[k]? = some a := by
  have hget : (m.front (k + 1))[k]? = m.cells[k]? :=
    List.getElem?_take_of_lt (Nat.lt_succ_self k)
  rw [← hget, h, ← hk, List.getElem?_append_right (Nat.le_refl _), Nat.sub_self]
  rfl

/-- A longer front begins with the shorter one. -/
theorem Memory.front_of_front {m : Memory α n} {k j : Nat} {l l' : List α}
    (h : m.front (k + j) = l ++ l') (hk : l.length = k) : m.front k = l := by
  have htake : (m.front (k + j)).take k = m.front k := by
    rw [front, front, List.take_take, Nat.min_eq_left (Nat.le_add_right k j)]
  rw [← htake, h, ← hk, List.take_left]

end Lib
