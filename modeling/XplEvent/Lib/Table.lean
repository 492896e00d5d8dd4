import Mathlib.Data.List.Induction

/-!
# Tables with at most one row per key

A table is a list of rows, in the order they were inserted. Two tables
hold the same rows when one is a permutation of the other. In a table that
is `Keyed` a key finds its row, and a row is replaced by removing what its
key finds and inserting it.
-/

namespace Lib

variable {ρ κ : Type _} [DecidableEq κ] (key : ρ → κ)

/-- At most one row per key. -/
def Keyed (rows : List ρ) : Prop := (rows.map key).Nodup

/-- The first row of a key. -/
def lookup (rows : List ρ) (k : κ) : Option ρ := rows.find? fun r => key r = k

/-- The rows of other keys. -/
def remove (rows : List ρ) (k : κ) : List ρ := rows.filter fun r => key r ≠ k

/-- The rows of a key replaced by one row. -/
def replace (rows : List ρ) (row : ρ) : List ρ := remove key rows (key row) ++ [row]

variable {key}

theorem lookup_cons_self {rows : List ρ} {a : ρ} {k : κ} (h : key a = k) :
    lookup key (a :: rows) k = some a :=
  List.find?_cons_of_pos (p := fun r => key r = k) (decide_eq_true h)

theorem lookup_cons_ne {rows : List ρ} {a : ρ} {k : κ} (h : key a ≠ k) :
    lookup key (a :: rows) k = lookup key rows k :=
  List.find?_cons_of_neg (p := fun r => key r = k) (by simpa using h)

theorem lookup_key {rows : List ρ} {k : κ} {r : ρ} (h : lookup key rows k = some r) :
    key r = k := by
  have hr := List.find?_some h
  exact of_decide_eq_true hr

theorem lookup_eq_none {rows : List ρ} {k : κ} :
    lookup key rows k = none ↔ ∀ r ∈ rows, key r ≠ k := by
  rw [lookup, List.find?_eq_none]
  exact ⟨fun h r hr => of_decide_eq_false (Bool.not_eq_true _ ▸ h r hr),
    fun h r hr heq => h r hr (of_decide_eq_true heq)⟩

theorem remove_of_absent {rows : List ρ} {k : κ} (h : lookup key rows k = none) :
    remove key rows k = rows :=
  List.filter_eq_self.mpr fun r hr => decide_eq_true (lookup_eq_none.mp h r hr)

/-- In a keyed table a key finds every row that has it. -/
theorem Keyed.lookup_of_mem {rows : List ρ} (h : Keyed key rows) {r : ρ} (hr : r ∈ rows) :
    lookup key rows (key r) = some r := by
  induction rows with
  | nil => exact absurd hr List.not_mem_nil
  | cons a rows ih =>
    obtain ⟨ha, hrows⟩ := List.nodup_cons.mp h
    rcases List.mem_cons.mp hr with rfl | hmem
    · exact lookup_cons_self rfl
    · have hne : key a ≠ key r := fun heq => ha (heq ▸ List.mem_map_of_mem hmem)
      rw [lookup_cons_ne hne]
      exact ih hrows hmem

/-- A search for a key by another test that decides it. -/
theorem find?_eq_lookup {rows : List ρ} {k : κ} {p : ρ → Bool}
    (h : ∀ r ∈ rows, p r = true ↔ key r = k) : rows.find? p = lookup key rows k := by
  induction rows with
  | nil => rfl
  | cons a rows ih =>
    have ha := h a List.mem_cons_self
    by_cases hk : key a = k
    · rw [lookup_cons_self hk, List.find?_cons_of_pos (ha.mpr hk)]
    · rw [lookup_cons_ne hk, List.find?_cons_of_neg (mt ha.mp hk)]
      exact ih fun r hr => h r (List.mem_cons_of_mem a hr)

theorem lookup_mem {rows : List ρ} {k : κ} {r : ρ} (h : lookup key rows k = some r) : r ∈ rows :=
  List.mem_of_find?_eq_some h

/-- A keyed table is the row of a key and the rows of the others. -/
theorem Keyed.perm_remove {rows : List ρ} (h : Keyed key rows) {k : κ} {r : ρ}
    (hr : lookup key rows k = some r) : rows.Perm (remove key rows k ++ [r]) := by
  induction rows with
  | nil => cases hr
  | cons a rows ih =>
    obtain ⟨ha, hrows⟩ := List.nodup_cons.mp h
    by_cases hk : key a = k
    · have hfound : a = r := by
        rw [lookup_cons_self hk] at hr
        exact Option.some.inj hr
      subst hfound
      have habsent : remove key rows k = rows := by
        refine remove_of_absent (lookup_eq_none.mpr fun r' hr' heq => ha ?_)
        rw [hk, ← heq]
        exact List.mem_map_of_mem hr'
      rw [remove, List.filter_cons_of_neg (by simpa using hk)]
      show (a :: rows).Perm (remove key rows k ++ [a])
      rw [habsent]
      exact (List.perm_append_singleton a rows).symm
    · have hr' : lookup key rows k = some r := by
        rw [lookup_cons_ne hk] at hr
        exact hr
      rw [remove, List.filter_cons_of_pos (by simpa using hk)]
      exact (ih hrows hr').cons a

theorem lookup_append (rows rows' : List ρ) (k : κ) :
    lookup key (rows ++ rows') k = (lookup key rows k).or (lookup key rows' k) :=
  List.find?_append

theorem lookup_map {α : Type _} (f : α → ρ) (l : List α) (k : κ) :
    lookup key (l.map f) k = (lookup (key ∘ f) l k).map f :=
  List.find?_map

theorem lookup_remove_self (rows : List ρ) (k : κ) : lookup key (remove key rows k) k = none := by
  refine lookup_eq_none.mpr fun r hr => ?_
  exact of_decide_eq_true (List.mem_filter.mp hr).2

theorem lookup_remove_of_ne (rows : List ρ) {k k' : κ} (h : k' ≠ k) :
    lookup key (remove key rows k) k' = lookup key rows k' := by
  rw [lookup, remove, List.find?_filter, lookup]
  congr 1
  funext r
  by_cases hr : key r = k'
  · simp [hr, h]
  · simp [hr]

/-- **A replaced row is what its key finds**, and the others are found as
before. -/
theorem lookup_replace (rows : List ρ) (row : ρ) (k : κ) :
    lookup key (replace key rows row) k =
      if k = key row then some row else lookup key rows k := by
  by_cases hk : k = key row
  · subst hk
    rw [if_pos rfl, replace, lookup_append, lookup_remove_self, Option.none_or]
    exact lookup_cons_self rfl
  · rw [if_neg hk, replace, lookup_append, lookup_remove_of_ne rows hk,
      lookup_cons_ne (Ne.symm hk)]
    exact Option.or_none

theorem Keyed.remove {rows : List ρ} (h : Keyed key rows) (k : κ) :
    Keyed key (remove key rows k) :=
  List.Sublist.nodup ((List.filter_sublist).map key) h

theorem Keyed.replace {rows : List ρ} (h : Keyed key rows) (row : ρ) :
    Keyed key (replace key rows row) := by
  unfold Keyed Lib.replace
  rw [List.map_append, List.nodup_append]
  refine ⟨h.remove (key row), ?_, ?_⟩
  · exact List.nodup_cons.mpr ⟨List.not_mem_nil, List.nodup_nil⟩
  · intro k hk k' hk'
    obtain ⟨r, hr, rfl⟩ := List.mem_map.mp hk
    rw [List.map_singleton, List.mem_singleton] at hk'
    subst hk'
    exact of_decide_eq_true (List.mem_filter.mp hr).2

omit [DecidableEq κ] in
theorem Keyed.perm {rows rows' : List ρ} (h : Keyed key rows) (hperm : rows.Perm rows') :
    Keyed key rows' := (hperm.map key).nodup h

/-- Keyed tables with the same rows find the same. -/
theorem Keyed.lookup_perm {rows rows' : List ρ} (h : Keyed key rows) (hperm : rows.Perm rows')
    (k : κ) : lookup key rows k = lookup key rows' k := by
  cases hr : lookup key rows k with
  | none =>
    refine (lookup_eq_none.mpr fun r hr' => ?_).symm
    exact lookup_eq_none.mp hr r (hperm.mem_iff.mpr hr')
  | some r =>
    have hfound := (h.perm hperm).lookup_of_mem (hperm.mem_iff.mp (lookup_mem hr))
    rw [lookup_key hr] at hfound
    exact hfound.symm

/-! ## When a table is the one with a row replaced -/

/-- An unchanged table is, if the row was already in it. -/
theorem Keyed.perm_replace_iff {rows : List ρ} (h : Keyed key rows) {row : ρ} :
    rows.Perm (Lib.replace key rows row) ↔ lookup key rows (key row) = some row := by
  constructor
  · intro hperm
    refine h.lookup_of_mem (hperm.mem_iff.mpr ?_)
    exact List.mem_append_right _ List.mem_cons_self
  · exact fun hr => h.perm_remove hr

/-- A table with a row inserted is, if the key found nothing and the row
is the right one. -/
theorem Keyed.append_perm_replace_iff {rows : List ρ} (h : Keyed key rows) {row row' : ρ} :
    (rows ++ [row']).Perm (Lib.replace key rows row) ↔
      lookup key rows (key row) = none ∧ row' = row := by
  cases hr : lookup key rows (key row) with
  | none =>
    rw [Lib.replace, remove_of_absent hr, List.perm_append_left_iff, List.perm_singleton]
    exact ⟨fun heq => ⟨rfl, (List.cons.inj heq).1⟩, fun heq => by rw [heq.2]⟩
  | some r =>
    refine iff_of_false (fun hperm => ?_) (fun heq => nomatch heq.1)
    have hlen := hperm.length_eq
    have hrows := (h.perm_remove hr).length_eq
    simp only [Lib.replace, List.length_append, List.length_singleton] at hlen hrows
    omega

/-- A table with the key's rows removed and a row inserted is, if the row
is the right one. -/
theorem remove_append_perm_iff (rows : List ρ) {row row' : ρ} :
    (remove key rows (key row) ++ [row']).Perm (replace key rows row) ↔ row' = row := by
  rw [replace, List.perm_append_left_iff, List.perm_singleton]
  exact ⟨fun heq => (List.cons.inj heq).1, fun heq => by rw [heq]⟩

/-! ## Rows put in place -/

variable (key) in
/-- A row put where the first row of its key stands, or behind the others. -/
def put (row : ρ) : List ρ → List ρ
  | [] => [row]
  | a :: rows => if key a = key row then row :: rows else a :: put row rows

/-- A row that is put is what its key finds, and the others are found as
before. -/
theorem lookup_put (rows : List ρ) (row : ρ) (k : κ) :
    lookup key (put key row rows) k = if k = key row then some row else lookup key rows k := by
  induction rows with
  | nil =>
    rw [put]
    by_cases hk : k = key row
    · rw [if_pos hk]
      exact lookup_cons_self hk.symm
    · rw [if_neg hk]
      exact lookup_cons_ne (Ne.symm hk)
  | cons a rows ih =>
    rw [put]
    by_cases ha : key a = key row
    · rw [if_pos ha]
      by_cases hk : k = key row
      · rw [if_pos hk]
        exact lookup_cons_self hk.symm
      · rw [if_neg hk, lookup_cons_ne (Ne.symm hk), lookup_cons_ne fun h => hk (h.symm.trans ha)]
    · rw [if_neg ha]
      by_cases hka : key a = k
      · have hk : k ≠ key row := fun h => ha (hka.trans h)
        rw [lookup_cons_self hka, if_neg hk, lookup_cons_self hka]
      · rw [lookup_cons_ne hka, lookup_cons_ne hka]
        exact ih

/-- The keys behind a put. -/
theorem mem_keys_put {rows : List ρ} {row : ρ} {k : κ} :
    k ∈ (put key row rows).map key ↔ k = key row ∨ k ∈ rows.map key := by
  induction rows with
  | nil => simp [put]
  | cons a rows ih =>
    rw [put]
    by_cases ha : key a = key row
    · rw [if_pos ha, List.map_cons, List.map_cons, List.mem_cons, List.mem_cons, ha, ← or_assoc,
        or_self]
    · rw [if_neg ha, List.map_cons, List.map_cons, List.mem_cons, List.mem_cons, ih]
      exact or_left_comm

theorem Keyed.put {rows : List ρ} (h : Keyed key rows) (row : ρ) :
    Keyed key (put key row rows) := by
  induction rows with
  | nil => exact List.nodup_cons.mpr ⟨List.not_mem_nil, List.nodup_nil⟩
  | cons a rows ih =>
    obtain ⟨ha, hrows⟩ := List.nodup_cons.mp h
    rw [Lib.put]
    by_cases hrow : key a = key row
    · rw [if_pos hrow]
      exact List.nodup_cons.mpr ⟨fun hmem => ha (hrow ▸ hmem), hrows⟩
    · rw [if_neg hrow]
      refine List.nodup_cons.mpr ⟨fun hmem => ?_, ih hrows⟩
      exact (mem_keys_put.mp hmem).elim hrow ha

theorem mem_put {rows : List ρ} {row r : ρ} (h : r ∈ put key row rows) : r = row ∨ r ∈ rows := by
  induction rows with
  | nil => exact .inl (List.mem_singleton.mp h)
  | cons a rows ih =>
    rw [put] at h
    split at h
    · exact (List.mem_cons.mp h).imp_right (List.mem_cons_of_mem a)
    · rcases List.mem_cons.mp h with rfl | h
      · exact .inr List.mem_cons_self
      · exact (ih h).imp_right (List.mem_cons_of_mem a)

/-! ## A list of rows put one after the other -/

variable (key) in
/-- The rows of a list put in order. -/
def putAll (rows new : List ρ) : List ρ := new.foldl (fun rows row => put key row rows) rows

/-- **The last row of a key is the one that is found.** -/
theorem lookup_putAll (rows new : List ρ) (k : κ) :
    lookup key (putAll key rows new) k = (lookup key new.reverse k).or (lookup key rows k) := by
  induction new generalizing rows with
  | nil => rfl
  | cons row new ih =>
    rw [List.reverse_cons, lookup_append, Option.or_assoc]
    refine (ih (put key row rows)).trans ?_
    rw [lookup_put]
    by_cases hk : k = key row
    · rw [if_pos hk, lookup_cons_self hk.symm, Option.some_or]
    · rw [if_neg hk, lookup_cons_ne (Ne.symm hk)]
      rfl

theorem mem_keys_putAll {rows new : List ρ} {k : κ} :
    k ∈ (putAll key rows new).map key ↔ k ∈ new.map key ∨ k ∈ rows.map key := by
  induction new generalizing rows with
  | nil => exact (or_iff_right List.not_mem_nil).symm
  | cons row new ih =>
    refine ih.trans ?_
    rw [mem_keys_put, List.map_cons, List.mem_cons, or_left_comm, or_assoc]

/-- A new key comes behind the others. -/
theorem keys_put (rows : List ρ) (row : ρ) : (put key row rows).map key =
    if key row ∈ rows.map key then rows.map key else rows.map key ++ [key row] := by
  induction rows with
  | nil => rfl
  | cons a rows ih =>
    rw [put]
    by_cases ha : key a = key row
    · have hmem : key row ∈ (a :: rows).map key := ha ▸ List.mem_cons_self
      rw [if_pos ha, if_pos hmem, List.map_cons, List.map_cons, ha]
    · have hiff : key row ∈ (a :: rows).map key ↔ key row ∈ rows.map key := by
        rw [List.map_cons, List.mem_cons]
        exact or_iff_right (Ne.symm ha)
      rw [if_neg ha, List.map_cons, ih]
      simp only [hiff]
      split
      · rfl
      · rfl

/-- **The keys are in the order in which they came first.** -/
theorem keys_putAll [BEq κ] [LawfulBEq κ] (new : List ρ) :
    (putAll key [] new).map key = (new.map key).eraseDups := by
  induction new using List.reverseRecOn with
  | nil => rfl
  | append_singleton new row ih =>
    have hput : putAll key [] (new ++ [row]) = put key row (putAll key [] new) := List.foldl_append
    rw [hput, keys_put, ih, List.map_append, List.eraseDups_append]
    by_cases hmem : key row ∈ new.map key
    · have hremoved : (List.map key [row]).removeAll (new.map key) = [] := by
        simpa [List.removeAll] using hmem
      rw [if_pos (List.mem_eraseDups.mpr hmem), hremoved, List.eraseDups_nil, List.append_nil]
    · have hremoved : (List.map key [row]).removeAll (new.map key) = [key row] := by
        simpa [List.removeAll] using hmem
      rw [if_neg (mt List.mem_eraseDups.mp hmem), hremoved]
      rfl

theorem Keyed.putAll {rows : List ρ} (h : Keyed key rows) (new : List ρ) :
    Keyed key (putAll key rows new) := by
  induction new generalizing rows with
  | nil => exact h
  | cons row new ih => exact ih (h.put row)

theorem mem_putAll {rows new : List ρ} {r : ρ} (h : r ∈ putAll key rows new) :
    r ∈ new ∨ r ∈ rows := by
  induction new generalizing rows with
  | nil => exact .inr h
  | cons row new ih =>
    rcases ih h with hr | hr
    · exact .inl (List.mem_cons_of_mem row hr)
    · rcases mem_put hr with rfl | hr
      · exact .inl List.mem_cons_self
      · exact .inr hr

end Lib
