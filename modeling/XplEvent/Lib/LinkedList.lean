import Mathlib.Data.List.Nodup
import Mathlib.Logic.Function.Basic

/-!
# Doubly linked lists in a heap

Cells of a heap are linked in both directions, and a head and a tail say
where the list begins and ends. `Links` says where a cell keeps its links;
`Holds` says which values a list has. A cell is put behind the last one,
or taken off the front, by the writes that a program makes: no other cell
is written. `HoldsAt` says where the values are as well, so that any cell
can be taken out.
-/

namespace Lib

open Function (update update_self update_of_ne)

/-- Where a cell of type `N` keeps its value and its two links. -/
structure Links (A N V : Type _) where
  value : N → V
  prev : N → Option A
  next : N → Option A
  setPrev : N → Option A → N
  setNext : N → Option A → N
  value_setPrev : ∀ n p, value (setPrev n p) = value n
  prev_setPrev : ∀ n p, prev (setPrev n p) = p
  next_setPrev : ∀ n p, next (setPrev n p) = next n
  value_setNext : ∀ n p, value (setNext n p) = value n
  prev_setNext : ∀ n p, prev (setNext n p) = prev n
  next_setNext : ∀ n p, next (setNext n p) = p

variable {A N V : Type _} (L : Links A N V)

/-- The cells from `start` on, behind the cell `before`. -/
def Links.Chain (heap : A → Option N) : Option A → Option A → List (A × N) → Prop
  | _, start, [] => start = none
  | before, start, (a, n) :: cells => start = some a ∧ heap a = some n ∧ L.prev n = before ∧
    Links.Chain heap (some a) (L.next n) cells

/-- A list in a heap, from its head to its tail. -/
def Links.Holds (heap : A → Option N) (head tail : Option A) (values : List V) : Prop :=
  ∃ cells, L.Chain heap none head cells ∧ tail = cells.getLast?.map Prod.fst ∧
    (cells.map Prod.fst).Nodup ∧ cells.map (fun c => L.value c.2) = values

/-- A list in a heap, with the addresses of its cells. -/
def Links.HoldsAt (heap : A → Option N) (head tail : Option A) (entries : List (A × V)) : Prop :=
  ∃ cells, L.Chain heap none head cells ∧ tail = cells.getLast?.map Prod.fst ∧
    (cells.map Prod.fst).Nodup ∧ cells.map (fun c => (c.1, L.value c.2)) = entries

variable {L}

/-- A chain does not change if its cells do not. -/
theorem Links.Chain.congr {heap heap' : A → Option N} {before start : Option A}
    {cells : List (A × N)} (h : L.Chain heap before start cells)
    (heq : ∀ c ∈ cells, heap' c.1 = heap c.1) : L.Chain heap' before start cells := by
  induction cells generalizing before start with
  | nil => exact h
  | cons c cells ih =>
    obtain ⟨hstart, hcell, hprev, hrest⟩ := h
    refine ⟨hstart, ?_, hprev, ih hrest fun c' hc' => heq c' (List.mem_cons_of_mem c hc')⟩
    exact (heq c List.mem_cons_self).trans hcell

theorem Links.Chain.allocated {heap : A → Option N} {before start : Option A}
    {cells : List (A × N)} (h : L.Chain heap before start cells) {c : A × N} (hc : c ∈ cells) :
    heap c.1 = some c.2 := by
  induction cells generalizing before start with
  | nil => cases hc
  | cons c' cells ih =>
    obtain ⟨-, hcell, -, hrest⟩ := h
    rcases List.mem_cons.mp hc with rfl | hc
    · exact hcell
    · exact ih hrest hc

/-- A list of values is a list of entries. -/
theorem Links.holds_iff {heap : A → Option N} {head tail : Option A} {values : List V} :
    L.Holds heap head tail values ↔
      ∃ entries, L.HoldsAt heap head tail entries ∧ entries.map Prod.snd = values := by
  constructor
  · rintro ⟨cells, hchain, htail, hnodup, rfl⟩
    exact ⟨_, ⟨cells, hchain, htail, hnodup, rfl⟩, List.map_map⟩
  · rintro ⟨entries, ⟨cells, hchain, htail, hnodup, rfl⟩, rfl⟩
    refine ⟨cells, hchain, htail, hnodup, ?_⟩
    rw [List.map_map]
    rfl

/-- The head is missing where there are no entries. -/
theorem Links.HoldsAt.head_eq_none {heap : A → Option N} {head tail : Option A}
    {entries : List (A × V)} (h : L.HoldsAt heap head tail entries) :
    head = none ↔ entries = [] := by
  obtain ⟨cells, hchain, -, -, rfl⟩ := h
  cases cells with
  | nil => exact iff_of_true hchain rfl
  | cons c cells =>
    rw [hchain.1]
    exact iff_of_false (Option.some_ne_none c.1) (List.cons_ne_nil _ _)

theorem Links.HoldsAt.tail_eq_none {heap : A → Option N} {head tail : Option A}
    {entries : List (A × V)} (h : L.HoldsAt heap head tail entries) :
    tail = none ↔ entries = [] := by
  obtain ⟨cells, -, rfl, -, rfl⟩ := h
  rw [Option.map_eq_none_iff, List.getLast?_eq_none_iff, List.map_eq_nil_iff]

theorem Links.Holds.head_eq_none {heap : A → Option N} {head tail : Option A} {values : List V}
    (h : L.Holds heap head tail values) : head = none ↔ values = [] := by
  obtain ⟨entries, hentries, rfl⟩ := holds_iff.mp h
  rw [hentries.head_eq_none, List.map_eq_nil_iff]

theorem Links.Holds.tail_eq_none {heap : A → Option N} {head tail : Option A} {values : List V}
    (h : L.Holds heap head tail values) : tail = none ↔ values = [] := by
  obtain ⟨entries, hentries, rfl⟩ := holds_iff.mp h
  rw [hentries.tail_eq_none, List.map_eq_nil_iff]

/-- A list has both its ends, or neither. -/
theorem Links.HoldsAt.ends_eq_none {heap : A → Option N} {head tail : Option A}
    {entries : List (A × V)} (h : L.HoldsAt heap head tail entries) :
    head = none ↔ tail = none :=
  h.head_eq_none.trans h.tail_eq_none.symm

theorem Links.Holds.ends_eq_none {heap : A → Option N} {head tail : Option A} {values : List V}
    (h : L.Holds heap head tail values) : head = none ↔ tail = none :=
  h.head_eq_none.trans h.tail_eq_none.symm

theorem Links.holdsAt_nil (heap : A → Option N) : L.HoldsAt heap none none [] :=
  ⟨[], rfl, rfl, List.nodup_nil, rfl⟩

theorem Links.holds_nil (heap : A → Option N) : L.Holds heap none none [] :=
  holds_iff.mpr ⟨[], holdsAt_nil heap, rfl⟩

section

variable [DecidableEq A]

/-- A new cell is put behind the last cell of a chain. -/
theorem Links.Chain.push {heap : A → Option N} {before start : Option A} {cells : List (A × N)}
    {t a : A} {nt n : N} (h : L.Chain heap before start (cells ++ [(t, nt)]))
    (ha : ∀ c ∈ cells ++ [(t, nt)], c.1 ≠ a) (ht : ∀ c ∈ cells, c.1 ≠ t)
    (hprev : L.prev n = some t) (hnext : L.next n = none) :
    L.Chain (update (update heap a (some n)) t (some (L.setNext nt (some a)))) before start
      (cells ++ [(t, L.setNext nt (some a)), (a, n)]) := by
  induction cells generalizing before start with
  | nil =>
    obtain ⟨hstart, -, hbefore, -⟩ := h
    refine ⟨hstart, update_self .., ?_, ?_, ?_, hprev, hnext⟩
    · rw [L.prev_setNext]
      exact hbefore
    · exact L.next_setNext nt (some a)
    · rw [update_of_ne (ha (t, nt) List.mem_cons_self).symm, update_self]
  | cons c cells ih =>
    obtain ⟨hstart, hcell, hbefore, hrest⟩ := h
    refine ⟨hstart, ?_, hbefore, ?_⟩
    · rw [update_of_ne (ht c List.mem_cons_self), update_of_ne (ha c List.mem_cons_self)]
      exact hcell
    · exact ih hrest (fun c' hc' => ha c' (List.mem_cons_of_mem c hc'))
        fun c' hc' => ht c' (List.mem_cons_of_mem c hc')

/-- The first entry. -/
theorem Links.HoldsAt.push_first {heap : A → Option N} {head : Option A} {entries : List (A × V)}
    (h : L.HoldsAt heap head none entries) {a : A} {n : N} (hprev : L.prev n = none)
    (hnext : L.next n = none) :
    L.HoldsAt (update heap a (some n)) (some a) (some a) (entries ++ [(a, L.value n)]) := by
  rw [h.tail_eq_none.mp rfl]
  exact ⟨[(a, n)], ⟨rfl, update_self .., hprev, hnext⟩, rfl, List.nodup_singleton a, rfl⟩

/-- **An entry is put behind the others.** -/
theorem Links.HoldsAt.push {heap : A → Option N} {head : Option A} {t : A}
    {entries : List (A × V)} (h : L.HoldsAt heap head (some t) entries) {a : A}
    (ha : heap a = none) {n : N} (hprev : L.prev n = some t) (hnext : L.next n = none) :
    ∃ nt, heap t = some nt ∧ t ≠ a ∧
      L.HoldsAt (update (update heap a (some n)) t (some (L.setNext nt (some a)))) head (some a)
        (entries ++ [(a, L.value n)]) := by
  obtain ⟨cells, hchain, htail, hnodup, rfl⟩ := h
  obtain ⟨⟨t', nt⟩, hlast, rfl⟩ := Option.map_eq_some_iff.mp htail.symm
  obtain ⟨init, rfl⟩ := List.getLast?_eq_some_iff.mp hlast
  have hfresh : ∀ c ∈ init ++ [(t', nt)], c.1 ≠ a := by
    intro c hc heq
    have hcell := hchain.allocated hc
    rw [heq, ha] at hcell
    cases hcell
  rw [List.map_append, List.nodup_append] at hnodup
  obtain ⟨hinit, -, hdisjoint⟩ := hnodup
  have hne : ∀ c ∈ init, c.1 ≠ t' := fun c hc =>
    hdisjoint c.1 (List.mem_map_of_mem hc) t' List.mem_cons_self
  have hlastCell : (t', nt) ∈ init ++ [(t', nt)] := List.mem_append_right init List.mem_cons_self
  refine ⟨nt, hchain.allocated hlastCell, hfresh _ hlastCell,
    init ++ [(t', L.setNext nt (some a)), (a, n)], hchain.push hfresh hne hprev hnext, ?_, ?_, ?_⟩
  · rw [List.getLast?_append]
    rfl
  · rw [List.map_append, List.nodup_append]
    refine ⟨hinit, ?_, ?_⟩
    · refine List.nodup_cons.mpr ⟨?_, List.nodup_singleton a⟩
      exact fun hmem => hfresh (t', nt) hlastCell (List.mem_singleton.mp hmem)
    · intro a₁ h₁ a₂ h₂
      obtain ⟨c, hc, rfl⟩ := List.mem_map.mp h₁
      rcases List.mem_cons.mp h₂ with rfl | h₂
      · exact hne c hc
      · rw [List.mem_singleton.mp h₂]
        exact hfresh c (List.mem_append_left _ hc)
  · rw [List.map_append, List.map_append, List.append_assoc]
    show _ ++ [(t', L.value (L.setNext nt (some a))), (a, L.value n)] = _
    rw [L.value_setNext]
    rfl

/-- The first value. -/
theorem Links.Holds.push_first {heap : A → Option N} {head : Option A} {values : List V}
    (h : L.Holds heap head none values) {a : A} {n : N} (hprev : L.prev n = none)
    (hnext : L.next n = none) :
    L.Holds (update heap a (some n)) (some a) (some a) (values ++ [L.value n]) := by
  obtain ⟨entries, hentries, rfl⟩ := holds_iff.mp h
  exact holds_iff.mpr ⟨_, hentries.push_first hprev hnext, List.map_append⟩

/-- **A value is put behind the others.** -/
theorem Links.Holds.push {heap : A → Option N} {head : Option A} {t : A} {values : List V}
    (h : L.Holds heap head (some t) values) {a : A} (ha : heap a = none) {n : N}
    (hprev : L.prev n = some t) (hnext : L.next n = none) : ∃ nt, heap t = some nt ∧ t ≠ a ∧
      L.Holds (update (update heap a (some n)) t (some (L.setNext nt (some a)))) head (some a)
        (values ++ [L.value n]) := by
  obtain ⟨entries, hentries, rfl⟩ := holds_iff.mp h
  obtain ⟨nt, hnt, hne, hpushed⟩ := hentries.push ha hprev hnext
  exact ⟨nt, hnt, hne, holds_iff.mpr ⟨_, hpushed, List.map_append⟩⟩

/-- **The first value is taken off**: the cell behind it has no cell before
it now. -/
theorem Links.Holds.pop {heap : A → Option N} {a : A} {tail : Option A} {values : List V}
    (h : L.Holds heap (some a) tail values) : ∃ n rest, heap a = some n ∧
      values = L.value n :: rest ∧
      match L.next n with
      | none => L.Holds (update heap a none) none none rest
      | some b => ∃ nb, heap b = some nb ∧ b ≠ a ∧
          L.Holds (update (update heap b (some (L.setPrev nb none))) a none) (some b) tail rest := by
  obtain ⟨cells, hchain, rfl, hnodup, rfl⟩ := h
  cases cells with
  | nil => cases hchain
  | cons c cells =>
    obtain ⟨a', n⟩ := c
    obtain ⟨hstart, hcell, -, hrest⟩ := hchain
    cases hstart
    refine ⟨n, _, hcell, rfl, ?_⟩
    obtain ⟨hnot, hnodup'⟩ := List.nodup_cons.mp hnodup
    cases cells with
    | nil =>
      have hnext : L.next n = none := hrest
      rw [hnext]
      exact holds_nil _
    | cons c cells =>
      obtain ⟨b, nb⟩ := c
      obtain ⟨hnext, hsecond, -, hbehind⟩ := hrest
      obtain ⟨hb, -⟩ := List.nodup_cons.mp hnodup'
      have hba : b ≠ a := fun heq => hnot (heq ▸ List.mem_cons_self)
      rw [hnext]
      refine ⟨nb, hsecond, hba, (b, L.setPrev nb none) :: cells, ⟨rfl, ?_, ?_, ?_⟩, ?_, ?_, ?_⟩
      · rw [update_of_ne hba, update_self]
      · exact L.prev_setPrev nb none
      · rw [L.next_setPrev]
        apply hbehind.congr
        intro c hc
        have hmem : c.1 ∈ cells.map Prod.fst := List.mem_map_of_mem hc
        have hca : c.1 ≠ a := fun heq => hnot (heq ▸ List.mem_cons_of_mem b hmem)
        have hcb : c.1 ≠ b := fun heq => hb (heq ▸ hmem)
        rw [update_of_ne hca, update_of_ne hcb]
      · rw [List.getLast?_cons_cons]
        cases cells with
        | nil => rfl
        | cons c cells =>
          rw [List.getLast?_cons_cons, List.getLast?_cons_cons]
      · exact hnodup'
      · show L.value (L.setPrev nb none) :: _ = _
        rw [L.value_setPrev]
        rfl

end

/-! ## Taking a cell out -/

/-- An entry is a cell with its value. -/
theorem Links.HoldsAt.cell {heap : A → Option N} {head tail : Option A} {entries : List (A × V)}
    (h : L.HoldsAt heap head tail entries) {e : A × V} (he : e ∈ entries) :
    ∃ n, heap e.1 = some n ∧ L.value n = e.2 := by
  obtain ⟨cells, hchain, -, -, rfl⟩ := h
  obtain ⟨c, hc, rfl⟩ := List.mem_map.mp he
  exact ⟨c.2, hchain.allocated hc, rfl⟩

theorem Links.HoldsAt.nodup {heap : A → Option N} {head tail : Option A} {entries : List (A × V)}
    (h : L.HoldsAt heap head tail entries) : (entries.map Prod.fst).Nodup := by
  obtain ⟨cells, -, -, hnodup, rfl⟩ := h
  rwa [List.map_map]

/-- Cells that a list does not have may change. -/
theorem Links.HoldsAt.congr {heap heap' : A → Option N} {head tail : Option A}
    {entries : List (A × V)} (h : L.HoldsAt heap head tail entries)
    (heq : ∀ e ∈ entries, heap' e.1 = heap e.1) : L.HoldsAt heap' head tail entries := by
  obtain ⟨cells, hchain, htail, hnodup, rfl⟩ := h
  refine ⟨cells, hchain.congr ?_, htail, hnodup, rfl⟩
  intro c hc
  exact heq (c.1, L.value c.2) (List.mem_map_of_mem hc)

variable (L) in
/-- The first cell is linked to another one before it. -/
def Links.relink (p : Option A) : List (A × N) → List (A × N)
  | [] => []
  | (b, nb) :: cells => (b, L.setPrev nb p) :: cells

theorem Links.relink_fst (p : Option A) (cells : List (A × N)) :
    (L.relink p cells).map Prod.fst = cells.map Prod.fst := by
  cases cells with
  | nil => rfl
  | cons c cells => rfl

theorem Links.relink_value (p : Option A) (cells : List (A × N)) :
    (L.relink p cells).map (fun c => (c.1, L.value c.2)) =
      cells.map fun c => (c.1, L.value c.2) := by
  cases cells with
  | nil => rfl
  | cons c cells => simp [relink, L.value_setPrev]

section

variable [DecidableEq A]

variable (L) in
/-- The cell before `n` is linked to another one behind it. -/
def Links.setBefore (heap : A → Option N) (n : N) (q : Option A) : A → Option N :=
  match L.prev n with
  | none => heap
  | some p => update heap p ((heap p).map (L.setNext · q))

variable (L) in
/-- The cell behind `n` is linked to another one before it. -/
def Links.setBehind (heap : A → Option N) (n : N) (p : Option A) : A → Option N :=
  match L.next n with
  | none => heap
  | some q => update heap q ((heap q).map (L.setPrev · p))

variable (L) in
/-- A cell is taken out: the ones before and behind it are linked. -/
def Links.unlink (heap : A → Option N) (n : N) : A → Option N :=
  L.setBehind (L.setBefore heap n (L.next n)) n (L.prev n)

theorem Links.setBefore_of_ne {heap : A → Option N} {n : N} {q : Option A} {x : A}
    (h : L.prev n ≠ some x) : L.setBefore heap n q x = heap x := by
  unfold setBefore
  cases hprev : L.prev n with
  | none => rfl
  | some p =>
    have hne : x ≠ p := by
      rintro rfl
      exact h hprev
    exact update_of_ne hne ..

theorem Links.setBehind_of_ne {heap : A → Option N} {n : N} {p : Option A} {x : A}
    (h : L.next n ≠ some x) : L.setBehind heap n p x = heap x := by
  unfold setBehind
  cases hnext : L.next n with
  | none => rfl
  | some q =>
    have hne : x ≠ q := by
      rintro rfl
      exact h hnext
    exact update_of_ne hne ..

omit [DecidableEq A] in
/-- The cells behind one of a chain. -/
theorem Links.Chain.behind {heap : A → Option N} {before start : Option A}
    {front rest : List (A × N)} {p : A} {np : N}
    (h : L.Chain heap before start (front ++ (p, np) :: rest)) :
    heap p = some np ∧ L.Chain heap (some p) (L.next np) rest := by
  induction front generalizing before start with
  | nil => exact ⟨h.2.1, h.2.2.2⟩
  | cons c front ih => exact ih h.2.2.2

omit [DecidableEq A] in
/-- A chain starts with its first cell. -/
theorem Links.Chain.start_mem {heap : A → Option N} {before start : Option A}
    {cells : List (A × N)} (h : L.Chain heap before start cells) {x : A} (hx : start = some x) :
    x ∈ cells.map Prod.fst := by
  cases cells with
  | nil =>
    rw [h] at hx
    cases hx
  | cons c cells =>
    rw [h.1] at hx
    cases hx
    exact List.mem_cons_self

/-- The cells behind `n` with another one before them. -/
theorem Links.Chain.relink {heap : A → Option N} {before : Option A} {n : N}
    {cells : List (A × N)} (h : L.Chain heap before (L.next n) cells)
    (hnodup : (cells.map Prod.fst).Nodup) (p : Option A) :
    L.Chain (L.setBehind heap n p) p (L.next n) (L.relink p cells) := by
  cases cells with
  | nil => exact h
  | cons c cells =>
    obtain ⟨b, nb⟩ := c
    obtain ⟨hnext, hcell, -, hrest⟩ := h
    obtain ⟨hnot, -⟩ := List.nodup_cons.mp hnodup
    refine ⟨hnext, ?_, L.prev_setPrev nb p, ?_⟩
    · simp [setBehind, hnext, hcell]
    · rw [L.next_setPrev]
      apply hrest.congr
      intro c hc
      have hmem : c.1 ∈ cells.map Prod.fst := List.mem_map_of_mem hc
      apply setBehind_of_ne
      rw [hnext]
      intro heq
      cases heq
      exact hnot hmem

/-- A cell that is not the first one is taken out of a chain. -/
theorem Links.Chain.unlink {heap : A → Option N} {before start : Option A}
    {front rest : List (A × N)} {p a : A} {np n : N}
    (h : L.Chain heap before start (front ++ (p, np) :: (a, n) :: rest))
    (hnodup : ((front ++ (p, np) :: (a, n) :: rest).map Prod.fst).Nodup) :
    L.Chain (L.unlink heap n) before start
      (front ++ (p, L.setNext np (L.next n)) :: L.relink (some p) rest) := by
  obtain ⟨hp, -, ha, hprev, hrest⟩ := h.behind
  have hnext : ∀ x, L.next n = some x → x ∈ rest.map Prod.fst := fun x hx => hrest.start_mem hx
  induction front generalizing before start with
  | nil =>
    obtain ⟨hstart, -, hbefore, -⟩ := h
    obtain ⟨hnotp, hnodup⟩ := List.nodup_cons.mp hnodup
    obtain ⟨-, hnodup⟩ := List.nodup_cons.mp hnodup
    have hkept : L.Chain (L.setBefore heap n (L.next n)) (some a) (L.next n) rest := by
      apply hrest.congr
      intro c hc
      have hmem : c.1 ∈ rest.map Prod.fst := List.mem_map_of_mem hc
      apply setBefore_of_ne
      rw [hprev]
      intro heq
      cases heq
      exact hnotp (List.mem_cons_of_mem a hmem)
    refine ⟨hstart, ?_, (L.prev_setNext np _).trans hbefore, ?_⟩
    · unfold Links.unlink
      rw [setBehind_of_ne fun heq => hnotp (List.mem_cons_of_mem a (hnext p heq))]
      simp [setBefore, hprev, hp]
    · rw [L.next_setNext]
      unfold Links.unlink
      rw [hprev]
      exact hkept.relink hnodup (some p)
  | cons c front ih =>
    obtain ⟨hstart, hcell, hbefore, hbehind⟩ := h
    obtain ⟨hnot, hnodup'⟩ := List.nodup_cons.mp hnodup
    refine ⟨hstart, ?_, hbefore, ih hbehind hnodup'⟩
    have hother : ∀ x, x ∈ p :: rest.map Prod.fst → x ≠ c.1 := by
      rintro x hx rfl
      apply hnot
      show c.1 ∈ (front ++ (p, np) :: (a, n) :: rest).map Prod.fst
      rw [List.map_append]
      apply List.mem_append_right
      rcases List.mem_cons.mp hx with rfl | hx
      · exact List.mem_cons_self
      · exact List.mem_cons_of_mem p (List.mem_cons_of_mem a hx)
    unfold Links.unlink
    rw [setBehind_of_ne, setBefore_of_ne]
    · exact hcell
    · rw [hprev]
      intro heq
      exact hother p List.mem_cons_self (Option.some.inj heq)
    · intro heq
      exact hother c.1 (List.mem_cons_of_mem p (hnext c.1 heq)) rfl

variable (L) in
/-- The cell of an entry in a list, with its neighbours. -/
structure Links.Linked (heap : A → Option N) (head tail : Option A) (a : A) (n : N) : Prop where
  cell : heap a = some n
  first : L.prev n = none → head = some a
  last : L.next n = none → tail = some a
  before : ∀ p, L.prev n = some p → p ≠ a ∧ ∃ np, heap p = some np
  behind : ∀ q, L.next n = some q → q ≠ a ∧ ∃ nq, heap q = some nq

/-- The first entry is taken out. -/
theorem Links.HoldsAt.unlink_first {heap : A → Option N} {head tail : Option A}
    {rest : List (A × N)} {a : A} {n : N} (hchain : L.Chain heap none head ((a, n) :: rest))
    (htail : tail = (((a, n) :: rest).map Prod.fst).getLast?)
    (hnodup : (((a, n) :: rest).map Prod.fst).Nodup) :
    L.Linked heap head tail a n ∧ L.HoldsAt (L.unlink heap n)
      (if L.prev n = none then L.next n else head)
      (if L.next n = none then L.prev n else tail) (rest.map fun c => (c.1, L.value c.2)) := by
  obtain ⟨hhead, ha, hprev, hrest⟩ := hchain
  obtain ⟨hnot, hnodup'⟩ := List.nodup_cons.mp hnodup
  have hunlink : L.unlink heap n = L.setBehind heap n none := by
    simp [Links.unlink, setBefore, hprev]
  constructor
  · refine ⟨ha, fun _ => hhead, ?_, ?_, ?_⟩
    · intro hnext
      rw [hnext] at hrest
      cases rest with
      | nil => exact htail
      | cons c rest => cases hrest.1
    · intro p hp
      rw [hprev] at hp
      cases hp
    · intro q hq
      have hmem := hrest.start_mem hq
      obtain ⟨c, hc, rfl⟩ := List.mem_map.mp hmem
      exact ⟨fun heq => hnot (heq ▸ hmem), c.2, hrest.allocated hc⟩
  · rw [if_pos hprev, hunlink, hprev]
    refine ⟨L.relink none rest, hrest.relink hnodup' none, ?_, ?_, L.relink_value none rest⟩
    · rw [← List.getLast?_map, L.relink_fst]
      cases rest with
      | nil =>
        have hlast : L.next n = none := hrest
        rw [if_pos hlast]
        rfl
      | cons c rest =>
        rw [if_neg (by simp [hrest.1]), htail]
        rfl
    · rw [L.relink_fst]
      exact hnodup'

/-- Another entry is taken out. -/
theorem Links.HoldsAt.unlink_behind {heap : A → Option N} {head tail : Option A}
    {front rest : List (A × N)} {p a : A} {np n : N}
    (hchain : L.Chain heap none head (front ++ (p, np) :: (a, n) :: rest))
    (htail : tail = ((front ++ (p, np) :: (a, n) :: rest).map Prod.fst).getLast?)
    (hnodup : ((front ++ (p, np) :: (a, n) :: rest).map Prod.fst).Nodup) :
    L.Linked heap head tail a n ∧ L.HoldsAt (L.unlink heap n)
      (if L.prev n = none then L.next n else head)
      (if L.next n = none then L.prev n else tail)
      ((front ++ (p, np) :: rest).map fun c => (c.1, L.value c.2)) := by
  obtain ⟨hp, -, ha, hprev, hrest⟩ := hchain.behind
  have hchain' := hchain.unlink hnodup
  have haddresses : (front ++ (p, L.setNext np (L.next n)) :: L.relink (some p) rest).map
      Prod.fst = front.map Prod.fst ++ p :: rest.map Prod.fst := by
    rw [List.map_append, List.map_cons, L.relink_fst]
  rw [List.map_append, List.map_cons, List.map_cons] at hnodup htail
  obtain ⟨hfront, hbehind, hdisjoint⟩ := List.nodup_append.mp hnodup
  obtain ⟨hnotp, hbehind⟩ := List.nodup_cons.mp hbehind
  obtain ⟨hnota, hnodupr⟩ := List.nodup_cons.mp hbehind
  constructor
  · refine ⟨ha, ?_, ?_, ?_, ?_⟩
    · intro hnone
      rw [hprev] at hnone
      cases hnone
    · intro hnext
      rw [hnext] at hrest
      cases rest with
      | nil => simpa using htail
      | cons c rest => cases hrest.1
    · intro p' hp'
      rw [hprev] at hp'
      cases hp'
      exact ⟨fun heq => hnotp (heq ▸ List.mem_cons_self), np, hp⟩
    · intro q hq
      have hmem := hrest.start_mem hq
      obtain ⟨c, hc, rfl⟩ := List.mem_map.mp hmem
      exact ⟨fun heq => hnota (heq ▸ hmem), c.2, hrest.allocated hc⟩
  · rw [if_neg (by simp [hprev]), hprev]
    refine ⟨_, hchain', ?_, ?_, ?_⟩
    · rw [← List.getLast?_map, haddresses]
      cases rest with
      | nil =>
        have hlast : L.next n = none := hrest
        rw [if_pos hlast]
        simp
      | cons c rest =>
        rw [if_neg (by simp [hrest.1]), htail]
        simp [List.getLast?_append, List.getLast?_cons_cons]
    · rw [haddresses]
      refine List.nodup_append.mpr ⟨hfront, List.nodup_cons.mpr ⟨?_, hnodupr⟩, ?_⟩
      · exact fun hmem => hnotp (List.mem_cons_of_mem a hmem)
      · intro x hx y hy
        refine hdisjoint x hx y ?_
        rcases List.mem_cons.mp hy with rfl | hy
        · exact List.mem_cons_self
        · exact List.mem_cons_of_mem p (List.mem_cons_of_mem a hy)
    · rw [List.map_append, List.map_append, List.map_cons, List.map_cons, L.relink_value,
        L.value_setNext]

/-- **An entry is taken out of a list**, wherever it stands. -/
theorem Links.HoldsAt.unlink {heap : A → Option N} {head tail : Option A}
    {front rest : List (A × V)} {a : A} {v : V}
    (h : L.HoldsAt heap head tail (front ++ (a, v) :: rest)) : ∃ n,
      L.Linked heap head tail a n ∧ L.HoldsAt (L.unlink heap n)
        (if L.prev n = none then L.next n else head)
        (if L.next n = none then L.prev n else tail) (front ++ rest) := by
  obtain ⟨cells, hchain, htail, hnodup, hentries⟩ := h
  rw [← List.getLast?_map] at htail
  obtain ⟨cfront, cbehind, rfl, rfl, hbehind⟩ := List.map_eq_append_iff.mp hentries
  obtain ⟨⟨a', n⟩, crest, rfl, hcell, rfl⟩ := List.map_eq_cons_iff.mp hbehind
  cases hcell
  refine ⟨n, ?_⟩
  rcases List.eq_nil_or_concat cfront with rfl | ⟨cfront, ⟨p, np⟩, rfl⟩
  · exact unlink_first hchain htail hnodup
  · rw [List.concat_eq_append, List.append_assoc, List.singleton_append] at hchain htail hnodup
    rw [List.concat_eq_append, ← List.map_append, List.append_assoc, List.singleton_append]
    exact unlink_behind hchain htail hnodup

end

end Lib
