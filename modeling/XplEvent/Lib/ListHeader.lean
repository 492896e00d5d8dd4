import XplEvent.Lib.LinkedList

/-!
# Lists with a header

A program keeps a doubly linked list by a header, which points to the
first and to the last cell, and reads and writes one cell at a time. The
operations here are such programs: a pointer that leads nowhere ends them
with `null`. Each comes with what it makes of the list of entries.
-/

namespace Lib

open Function (update update_self update_of_ne)

/-- A list's two ends, and the cells that are allocated. -/
structure Header (A N : Type _) where
  head : Option A
  tail : Option A
  heap : A → Option N

variable {A N V ε : Type _} (L : Links A N V)

/-- The cell a pointer leads to. -/
def Header.follow (null : ε) (h : Header A N) (p : Option A) : Except ε (A × N) :=
  match p with
  | none => .error null
  | some a =>
    match h.heap a with
    | none => .error null
    | some n => .ok (a, n)

theorem Header.follow_ok {null : ε} {h : Header A N} {p : Option A} {a : A} {n : N}
    (hp : p = some a) (hn : h.heap a = some n) : h.follow null p = .ok (a, n) := by
  rw [hp, follow, hn]

theorem Header.follow_error {null : ε} {h : Header A N} {a : A} (hn : h.heap a = none) :
    h.follow null (some a) = .error null := by
  rw [follow, hn]

variable [DecidableEq A]

/-- A cell is written. -/
def Header.store (h : Header A N) (a : A) (n : N) : Header A N :=
  { h with heap := update h.heap a (some n) }

@[simp] theorem Header.store_head (h : Header A N) (a : A) (n : N) :
    (h.store a n).head = h.head := rfl

@[simp] theorem Header.store_tail (h : Header A N) (a : A) (n : N) :
    (h.store a n).tail = h.tail := rfl

/-- Another cell is read behind a write. -/
theorem Header.follow_store {null : ε} {h : Header A N} {p : Option A} {a b : A} {n m : N}
    (hp : p = some a) (hn : h.heap a = some n) (hne : b ≠ a) :
    (h.store b m).follow null p = .ok (a, n) :=
  follow_ok hp ((update_of_ne hne.symm ..).trans hn)

/-! ## Removal -/

/-- A cell is taken out of the list: the only one, the first, the last, or
one in the middle. -/
def Links.remove (null : ε) (h : Header A N) (a : A) : Except ε (Header A N) := do
  let (_, n) ← h.follow null (some a)
  match L.prev n, L.next n with
  | none, none => return { h with head := none, tail := none }
  | none, some _ =>
    let (_, first) ← h.follow null h.head
    let (b, second) ← h.follow null (L.next first)
    let h := h.store b (L.setPrev second none)
    let (_, first) ← h.follow null h.head
    return { h with head := L.next first }
  | some _, none =>
    let (_, last) ← h.follow null h.tail
    let (b, butLast) ← h.follow null (L.prev last)
    let h := h.store b (L.setNext butLast none)
    let (_, last) ← h.follow null h.tail
    return { h with tail := L.prev last }
  | some p, some _ =>
    let (_, before) ← h.follow null (some p)
    let h := h.store p (L.setNext before (L.next n))
    let (_, n) ← h.follow null (some a)
    let (q, behind) ← h.follow null (L.next n)
    return h.store q (L.setPrev behind (L.prev n))

variable {L}

/-- The four cases are one: the cell is unlinked. -/
theorem Links.remove_eq {null : ε} {h : Header A N} {a : A} {n : N}
    (hlinked : L.Linked h.heap h.head h.tail a n) :
    L.remove null h a = .ok
      { head := if L.prev n = none then L.next n else h.head
        tail := if L.next n = none then L.prev n else h.tail
        heap := L.unlink h.heap n } := by
  obtain ⟨hcell, hfirst, hlast, hbefore, hbehind⟩ := hlinked
  unfold remove
  rw [Header.follow_ok rfl hcell]
  cases hprev : L.prev n with
  | none =>
    have hhead := hfirst hprev
    cases hnext : L.next n with
    | none =>
      simp [unlink, setBefore, setBehind, hprev, hnext, pure, Except.pure, bind, Except.bind]
    | some q =>
      obtain ⟨hne, second, hsecond⟩ := hbehind q hnext
      simp only [Header.follow_ok hhead hcell, Header.follow_ok rfl hsecond, Header.store_head,
        Header.follow_store hhead hcell hne, hprev, hnext, bind, Except.bind]
      simp [Header.store, unlink, setBefore, setBehind, hprev, hnext, hsecond, pure, Except.pure]
  | some p =>
    obtain ⟨hne, before, hbefore⟩ := hbefore p hprev
    cases hnext : L.next n with
    | none =>
      have htail := hlast hnext
      simp only [Header.follow_ok htail hcell, Header.follow_ok rfl hbefore, Header.store_tail,
        Header.follow_store htail hcell hne, hprev, hnext, bind, Except.bind]
      simp [Header.store, unlink, setBefore, setBehind, hprev, hnext, hbefore, pure, Except.pure]
    | some q =>
      obtain ⟨hneq, behind, hbehind⟩ := hbehind q hnext
      -- The cell behind may be the one before, which has just been written.
      have hread : ∃ behind', (h.store p (L.setNext before (some q))).heap q =
          some behind' := by
        by_cases hqp : q = p
        · rw [hqp]
          exact ⟨_, update_self ..⟩
        · exact ⟨behind, (update_of_ne hqp ..).trans hbehind⟩
      obtain ⟨behind', hread⟩ := hread
      simp only [Header.follow_ok rfl hbefore, hnext, hprev, bind, Except.bind,
        Header.follow_store rfl hcell hne, Header.follow_ok rfl hread]
      simp only [Header.store] at hread
      simp [Header.store, unlink, setBefore, setBehind, hprev, hnext, hbefore, hread, pure,
        Except.pure]

/-- A cell that gets another link keeps its value. -/
theorem value_update {value : N → V} {relink : N → N} (hkeep : ∀ n, value (relink n) = value n)
    (heap : A → Option N) (a x : A) :
    (update heap a ((heap a).map relink) x).map value = (heap x).map value := by
  by_cases hx : x = a
  · rw [hx, update_self, Option.map_map]
    exact Option.map_congr fun n _ => hkeep n
  · rw [update_of_ne hx]

/-- A cell that is taken out leaves every value as it was. -/
theorem Links.unlink_value (heap : A → Option N) (n : N) (x : A) :
    (L.unlink heap n x).map L.value = (heap x).map L.value := by
  have hbefore : ∀ q, (L.setBefore heap n q x).map L.value = (heap x).map L.value := by
    intro q
    unfold setBefore
    cases L.prev n with
    | none => rfl
    | some p => exact value_update (fun m => L.value_setNext m q) heap p x
  unfold unlink setBehind
  cases L.next n with
  | none => exact hbefore none
  | some q => exact (value_update (fun m => L.value_setPrev m _) _ q x).trans (hbefore (some q))

/-- Without one address, where addresses are distinct. -/
theorem filter_ne_append {front rest : List (A × V)} {a : A} {v : V}
    (h : ((front ++ (a, v) :: rest).map Prod.fst).Nodup) :
    (front ++ (a, v) :: rest).filter (·.1 ≠ a) = front ++ rest := by
  rw [List.map_append, List.map_cons] at h
  obtain ⟨-, hbehind, hdisjoint⟩ := List.nodup_append.mp h
  obtain ⟨hnot, -⟩ := List.nodup_cons.mp hbehind
  have hfront : front.filter (·.1 ≠ a) = front := by
    apply List.filter_eq_self.mpr
    intro e he
    exact decide_eq_true (hdisjoint e.1 (List.mem_map_of_mem he) a List.mem_cons_self)
  have hrest : rest.filter (·.1 ≠ a) = rest := by
    apply List.filter_eq_self.mpr
    intro e he
    exact decide_eq_true fun heq => hnot (List.mem_map.mpr ⟨e, he, heq⟩)
  rw [List.filter_append, hfront, List.filter_cons_of_neg (by simp), hrest]

variable (L) in
/-- The list of a header. -/
def Links.HeldBy (h : Header A N) (entries : List (A × V)) : Prop :=
  L.HoldsAt h.heap h.head h.tail entries

/-- **An entry is removed**: the others stay in their order, the entry
itself is not written, and no value changes. -/
theorem Links.HeldBy.remove {h : Header A N} {entries : List (A × V)} (hheld : L.HeldBy h entries)
    {a : A} {v : V} (ha : (a, v) ∈ entries) (null : ε) :
    ∃ h', L.remove null h a = .ok h' ∧ h'.heap a = h.heap a ∧
      L.HeldBy h' (entries.filter (·.1 ≠ a)) ∧
      ∀ x, (h'.heap x).map L.value = (h.heap x).map L.value := by
  obtain ⟨front, rest, rfl⟩ := List.append_of_mem ha
  obtain ⟨n, hlinked, hlinks⟩ := HoldsAt.unlink hheld
  refine ⟨_, remove_eq hlinked, ?_, ?_, unlink_value h.heap n⟩
  · have hprev : L.prev n ≠ some a := fun heq => (hlinked.before a heq).1 rfl
    have hnext : L.next n ≠ some a := fun heq => (hlinked.behind a heq).1 rfl
    exact (setBehind_of_ne hnext).trans (setBefore_of_ne hprev)
  · rw [filter_ne_append hheld.nodup]
    exact hlinks

/-! ## A new value -/

theorem Links.Chain.set {heap : A → Option N} {before start : Option A} {cells : List (A × N)}
    (h : L.Chain heap before start cells) {a : A} {n m : N} (hn : heap a = some n)
    (hprev : L.prev m = L.prev n) (hnext : L.next m = L.next n) :
    L.Chain (update heap a (some m)) before start
      (cells.map fun c => if c.1 = a then (a, m) else c) := by
  induction cells generalizing before start with
  | nil => exact h
  | cons c cells ih =>
    obtain ⟨b, k⟩ := c
    obtain ⟨hstart, hcell, hbefore, hrest⟩ := h
    rw [List.map_cons]
    by_cases hb : b = a
    · subst hb
      obtain rfl : k = n := Option.some.inj (hcell.symm.trans hn)
      rw [if_pos rfl]
      refine ⟨hstart, update_self .., hprev.trans hbefore, ?_⟩
      rw [hnext]
      exact ih hrest
    · rw [if_neg hb]
      exact ⟨hstart, (update_of_ne hb ..).trans hcell, hbefore, ih hrest⟩

/-- **An entry gets a new value**, and keeps its links. -/
theorem Links.HoldsAt.set {heap : A → Option N} {head tail : Option A} {entries : List (A × V)}
    (h : L.HoldsAt heap head tail entries) {a : A} {n m : N} (hn : heap a = some n)
    (hprev : L.prev m = L.prev n) (hnext : L.next m = L.next n) :
    L.HoldsAt (update heap a (some m)) head tail
      (entries.map fun e => if e.1 = a then (a, L.value m) else e) := by
  obtain ⟨cells, hchain, htail, hnodup, rfl⟩ := h
  have hfst : ∀ c : A × N, (if c.1 = a then (a, m) else c).1 = c.1 := by
    intro c
    split
    · rename_i hc
      exact hc.symm
    · rfl
  refine ⟨_, hchain.set hn hprev hnext, ?_, ?_, ?_⟩
  · rw [List.getLast?_map, Option.map_map, htail]
    exact Option.map_congr fun c _ => (hfst c).symm
  · rw [List.map_map]
    exact (List.map_congr_left fun c _ => hfst c) ▸ hnodup
  · rw [List.map_map, List.map_map]
    apply List.map_congr_left
    intro c _
    show ((if c.1 = a then (a, m) else c).1, L.value (if c.1 = a then (a, m) else c).2) =
      if c.1 = a then (a, L.value m) else (c.1, L.value c.2)
    split
    · rfl
    · rfl

/-! ## A walk along the list -/

variable (L) in
/-- From `start` on, the first cell that passes a test; `circle` if none of
the first `turns` cells does and the list goes on. -/
def Links.find (null circle : ε) (heap : A → Option N) (test : A → N → Except ε Bool) :
    Nat → Option A → Except ε (Option A)
  | _, none => .ok none
  | 0, some _ => .error circle
  | turns + 1, some a =>
    match heap a with
    | none => .error null
    | some n => do
      if ← test a n then return some a
      else Links.find null circle heap test turns (L.next n)

omit [DecidableEq A] in
theorem Links.Chain.find {heap : A → Option N} {before start : Option A} {cells : List (A × N)}
    (h : L.Chain heap before start cells) {test : A → N → Except ε Bool} {passes : A × V → Bool}
    (htest : ∀ c ∈ cells, test c.1 c.2 = .ok (passes (c.1, L.value c.2))) {turns : Nat}
    (hturns : cells.length ≤ turns) (null circle : ε) :
    L.find null circle heap test turns start =
      .ok (((cells.map fun c => (c.1, L.value c.2)).find? passes).map Prod.fst) := by
  induction cells generalizing before start turns with
  | nil =>
    rw [show start = none from h]
    cases turns with
    | zero => rfl
    | succ turns => rfl
  | cons c cells ih =>
    obtain ⟨hstart, hcell, -, hrest⟩ := h
    obtain ⟨turns, rfl⟩ : ∃ n, turns = n + 1 := ⟨turns - 1, by
      rw [List.length_cons] at hturns
      omega⟩
    have hbehind := ih hrest (fun c' hc' => htest c' (List.mem_cons_of_mem c hc'))
      (Nat.le_of_succ_le_succ hturns)
    rw [hstart, Links.find, hcell, List.map_cons, List.find?_cons]
    simp only [htest c List.mem_cons_self, bind, Except.bind]
    cases passes (c.1, L.value c.2) with
    | true => rfl
    | false => exact hbehind

omit [DecidableEq A] in
/-- **A walk finds the first entry that passes the test.** -/
theorem Links.HoldsAt.find {heap : A → Option N} {head tail : Option A} {entries : List (A × V)}
    (h : L.HoldsAt heap head tail entries) {test : A → N → Except ε Bool} {passes : A × V → Bool}
    (htest : ∀ a n, (a, L.value n) ∈ entries → test a n = .ok (passes (a, L.value n)))
    {turns : Nat} (hturns : entries.length ≤ turns) (null circle : ε) :
    L.find null circle heap test turns head = .ok ((entries.find? passes).map Prod.fst) := by
  obtain ⟨cells, hchain, -, -, rfl⟩ := h
  refine hchain.find (fun c hc => htest c.1 c.2 ?_) ?_ null circle
  · exact List.mem_map_of_mem (f := fun c => (c.1, L.value c.2)) hc
  · rwa [List.length_map] at hturns

end Lib
