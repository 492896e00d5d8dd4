import Mathlib.Logic.Function.Basic

/-!
# Singly linked lists in a heap

Cells of a heap are linked forward. `Links` says where a cell keeps its
link, `Chain` which cells are come to from a start. A cell is put behind
the last one, or in the place of another one, by the writes that a program
makes.
-/

namespace Lib.Forward

open Function (update update_self update_of_ne)

/-- Where a cell of type `N` keeps its link. -/
structure Links (A N : Type _) where
  next : N → Option A
  setNext : N → Option A → N
  next_setNext : ∀ n p, next (setNext n p) = p

variable {A N : Type _} (L : Links A N)

/-- The cells from `start` on. -/
def Links.Chain (heap : A → Option N) : Option A → List (A × N) → Prop
  | start, [] => start = none
  | start, (a, n) :: cells => start = some a ∧ heap a = some n ∧ Chain heap (L.next n) cells

variable {L}

/-- A chain does not change if its cells do not. -/
theorem Links.Chain.congr {heap heap' : A → Option N} {start : Option A} {cells : List (A × N)}
    (h : L.Chain heap start cells) (heq : ∀ c ∈ cells, heap' c.1 = heap c.1) :
    L.Chain heap' start cells := by
  induction cells generalizing start with
  | nil => exact h
  | cons c cells ih =>
    obtain ⟨hstart, hcell, hrest⟩ := h
    refine ⟨hstart, ?_, ih hrest fun c' hc' => heq c' (List.mem_cons_of_mem c hc')⟩
    exact (heq c List.mem_cons_self).trans hcell

theorem Links.Chain.allocated {heap : A → Option N} {start : Option A} {cells : List (A × N)}
    (h : L.Chain heap start cells) {c : A × N} (hc : c ∈ cells) : heap c.1 = some c.2 := by
  induction cells generalizing start with
  | nil => cases hc
  | cons c' cells ih =>
    obtain ⟨-, hcell, hrest⟩ := h
    rcases List.mem_cons.mp hc with rfl | hc
    · exact hcell
    · exact ih hrest hc

theorem Links.Chain.start_eq_none {heap : A → Option N} {start : Option A} {cells : List (A × N)}
    (h : L.Chain heap start cells) : start = none ↔ cells = [] := by
  cases cells with
  | nil => exact iff_of_true h rfl
  | cons c cells =>
    rw [h.1]
    exact iff_of_false (Option.some_ne_none c.1) (List.cons_ne_nil c cells)

/-- An address that is not allocated is not in a chain. -/
theorem Links.Chain.ne_of_fresh {heap : A → Option N} {start : Option A} {cells : List (A × N)}
    (h : L.Chain heap start cells) {a : A} (ha : heap a = none) : ∀ c ∈ cells, c.1 ≠ a := by
  rintro c hc rfl
  have hcell := h.allocated hc
  rw [ha] at hcell
  cases hcell

theorem Links.Chain.fresh_not_mem {heap : A → Option N} {start : Option A} {cells : List (A × N)}
    (h : L.Chain heap start cells) {a : A} (ha : heap a = none) : a ∉ cells.map Prod.fst := by
  intro hmem
  obtain ⟨c, hc, heq⟩ := List.mem_map.mp hmem
  exact h.ne_of_fresh ha c hc heq

/-- The cells behind others. -/
theorem Links.Chain.behind {heap : A → Option N} {start : Option A} {pre cells : List (A × N)}
    (h : L.Chain heap start (pre ++ cells)) : ∃ start', L.Chain heap start' cells := by
  induction pre generalizing start with
  | nil => exact ⟨start, h⟩
  | cons c pre ih => exact ih h.2.2

variable [DecidableEq A]

/-- A cell is written, with its link as it was. -/
theorem Links.Chain.set {heap : A → Option N} {start : Option A} {pre post : List (A × N)}
    {a : A} {n n' : N} (h : L.Chain heap start (pre ++ (a, n) :: post))
    (hnodup : ((pre ++ (a, n) :: post).map Prod.fst).Nodup) (hnext : L.next n' = L.next n) :
    L.Chain (update heap a (some n')) start (pre ++ (a, n') :: post) := by
  induction pre generalizing start with
  | nil =>
    obtain ⟨hstart, -, hrest⟩ := h
    have hnot := (List.nodup_cons.mp hnodup).1
    refine ⟨hstart, update_self .., ?_⟩
    rw [hnext]
    exact hrest.congr fun c hc =>
      update_of_ne (fun heq => hnot (List.mem_map.mpr ⟨c, hc, heq⟩)) _ _
  | cons c pre ih =>
    obtain ⟨hstart, hcell, hrest⟩ := h
    obtain ⟨hnot, hnodup⟩ := List.nodup_cons.mp hnodup
    refine ⟨hstart, ?_, ih hrest hnodup⟩
    rw [update_of_ne]
    · exact hcell
    · intro heq
      exact hnot (List.mem_map.mpr ⟨(a, n), List.mem_append_right pre List.mem_cons_self, heq.symm⟩)

/-- **A new cell is put behind the last one.** -/
theorem Links.Chain.push {heap : A → Option N} {start : Option A} {pre : List (A × N)} {t a : A}
    {nt n : N} (h : L.Chain heap start (pre ++ [(t, nt)]))
    (hnodup : ((pre ++ [(t, nt)]).map Prod.fst).Nodup) (ha : heap a = none)
    (hnext : L.next n = none) :
    L.Chain (update (update heap a (some n)) t (some (L.setNext nt (some a)))) start
      (pre ++ [(t, L.setNext nt (some a)), (a, n)]) := by
  have hfresh := h.ne_of_fresh ha
  induction pre generalizing start with
  | nil =>
    refine ⟨h.1, update_self .., L.next_setNext nt (some a), ?_, hnext⟩
    rw [update_of_ne (hfresh (t, nt) List.mem_cons_self).symm, update_self]
  | cons c pre ih =>
    obtain ⟨hstart, hcell, hrest⟩ := h
    obtain ⟨hnot, hnodup⟩ := List.nodup_cons.mp hnodup
    have hct : c.1 ≠ t := by
      intro heq
      exact hnot (List.mem_map.mpr ⟨(t, nt), List.mem_append_right pre List.mem_cons_self, heq.symm⟩)
    refine ⟨hstart, ?_, ih hrest hnodup fun c' hc' => hfresh c' (List.mem_cons_of_mem c hc')⟩
    rw [update_of_ne hct, update_of_ne (hfresh c List.mem_cons_self)]
    exact hcell

/-- **A new cell takes the place of the first one**, which is freed. -/
theorem Links.Chain.replaceHead {heap : A → Option N} {start : Option A} {post : List (A × N)}
    {k a : A} {nk n : N} (h : L.Chain heap start ((k, nk) :: post))
    (hnodup : (((k, nk) :: post).map Prod.fst).Nodup) (ha : heap a = none)
    (hnext : L.next n = L.next nk) :
    L.Chain (update (update heap a (some n)) k none) (some a) ((a, n) :: post) := by
  have hfresh := h.ne_of_fresh ha
  obtain ⟨-, -, hrest⟩ := h
  have hnot := (List.nodup_cons.mp hnodup).1
  refine ⟨rfl, ?_, ?_⟩
  · rw [update_of_ne (hfresh (k, nk) List.mem_cons_self).symm, update_self]
  · rw [hnext]
    refine hrest.congr fun c hc => ?_
    rw [update_of_ne (fun heq => hnot (List.mem_map.mpr ⟨c, hc, heq⟩)),
      update_of_ne (hfresh c (List.mem_cons_of_mem _ hc))]

/-- **A new cell takes the place of one behind another**, which is freed. -/
theorem Links.Chain.replace {heap : A → Option N} {start : Option A} {pre post : List (A × N)}
    {p k a : A} {np nk n : N} (h : L.Chain heap start (pre ++ (p, np) :: (k, nk) :: post))
    (hnodup : ((pre ++ (p, np) :: (k, nk) :: post).map Prod.fst).Nodup) (ha : heap a = none)
    (hnext : L.next n = L.next nk) :
    L.Chain (update (update (update heap a (some n)) p (some (L.setNext np (some a)))) k none) start
      (pre ++ (p, L.setNext np (some a)) :: (a, n) :: post) := by
  have hfresh := h.ne_of_fresh ha
  induction pre generalizing start with
  | nil =>
    obtain ⟨hstart, hp, hrest⟩ := h
    obtain ⟨hpnot, hnodup⟩ := List.nodup_cons.mp hnodup
    have hpk : p ≠ k := fun heq => hpnot (heq ▸ List.mem_cons_self)
    have hap : a ≠ p := (hfresh (p, np) List.mem_cons_self).symm
    refine ⟨hstart, ?_, ?_⟩
    · rw [update_of_ne hpk, update_self]
    · rw [L.next_setNext]
      have hplaced := hrest.replaceHead hnodup ha hnext
      refine hplaced.congr fun c hc => ?_
      by_cases hck : c.1 = k
      · rw [hck, update_self, update_self]
      · have hcp : c.1 ≠ p := by
          rcases List.mem_cons.mp hc with rfl | hc
          · exact hap
          · intro heq
            exact hpnot (List.mem_cons_of_mem k (List.mem_map.mpr ⟨c, hc, heq⟩))
        rw [update_of_ne hck, update_of_ne hck, update_of_ne hcp]
  | cons c pre ih =>
    obtain ⟨hstart, hcell, hrest⟩ := h
    obtain ⟨hnot, hnodup⟩ := List.nodup_cons.mp hnodup
    have hne : ∀ c' ∈ pre ++ (p, np) :: (k, nk) :: post, c.1 ≠ c'.1 :=
      fun c' hc' heq => hnot (List.mem_map.mpr ⟨c', hc', heq.symm⟩)
    have hcp := hne (p, np) (List.mem_append_right pre List.mem_cons_self)
    have hck := hne (k, nk) (List.mem_append_right pre (List.mem_cons_of_mem _ List.mem_cons_self))
    refine ⟨hstart, ?_, ih hrest hnodup fun c' hc' => hfresh c' (List.mem_cons_of_mem c hc')⟩
    rw [update_of_ne hck, update_of_ne hcp, update_of_ne (hfresh c List.mem_cons_self)]
    exact hcell

end Lib.Forward
