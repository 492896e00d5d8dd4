/-!
# Folds that stop early

A fold over items whose step may fail. `Foretold` says that the items alone
decide which of them stops it, and for what kind of reason, and what has been
collected up to then. Then the first such item decides about the whole fold.
-/

namespace Lib

variable {S A E K T : Type _}

/-- In the states with `inv` and for the items with `good`, `stop` tells what
a step fails for, and `add` what it adds to the view of the state. -/
structure Foretold (step : S → A → Except E S) (inv : S → Prop) (good : A → Prop)
    (stop : A → Option K) (kind : E → K) (view : S → T) (add : T → A → T) : Prop where
  stops : ∀ {s a k}, inv s → good a → stop a = some k → ∃ e, step s a = .error e ∧ kind e = k
  goes : ∀ {s a}, inv s → good a → stop a = none →
    ∃ s', step s a = .ok s' ∧ inv s' ∧ view s' = add (view s) a

/-- The first item that stops the fold. -/
def firstStop (stop : A → Option K) (as : List A) : Option K := as.findSome? stop

variable {stop : A → Option K}

theorem firstStop_append (as bs : List A) :
    firstStop stop (as ++ bs) = (firstStop stop as).or (firstStop stop bs) :=
  List.findSome?_append

theorem firstStop_eq_none {as : List A} : firstStop stop as = none ↔ ∀ a ∈ as, stop a = none :=
  List.findSome?_eq_none_iff

variable {step : S → A → Except E S} {inv : S → Prop} {good : A → Prop} {kind : E → K}
  {view : S → T} {add : T → A → T}

/-- Nothing stops the fold: it collects all items. -/
theorem Foretold.run_goes (h : Foretold step inv good stop kind view add) {as : List A}
    (hgood : ∀ a ∈ as, good a) (hstop : firstStop stop as = none) {s : S} (hs : inv s) : ∃ s',
    as.foldlM step s = .ok s' ∧ inv s' ∧ view s' = as.foldl add (view s) := by
  induction as generalizing s with
  | nil => exact ⟨s, rfl, hs, rfl⟩
  | cons a as ih =>
    have hnone := firstStop_eq_none.mp hstop
    obtain ⟨t, hstep, ht, hview⟩ := h.goes hs (hgood a List.mem_cons_self)
      (hnone a List.mem_cons_self)
    obtain ⟨s', hrun, hs', hview'⟩ := ih (fun b hb => hgood b (List.mem_cons_of_mem a hb))
      (firstStop_eq_none.mpr fun b hb => hnone b (List.mem_cons_of_mem a hb)) ht
    refine ⟨s', ?_, hs', ?_⟩
    · rw [List.foldlM_cons, hstep]
      exact hrun
    · rw [hview', hview]
      rfl

/-- The first item that stops it says why. -/
theorem Foretold.run_stops (h : Foretold step inv good stop kind view add) {as : List A}
    (hgood : ∀ a ∈ as, good a) {k : K} (hstop : firstStop stop as = some k) {s : S} (hs : inv s) :
    ∃ e, as.foldlM step s = .error e ∧ kind e = k := by
  induction as generalizing s with
  | nil => cases hstop
  | cons a as ih =>
    unfold firstStop at hstop
    rw [List.findSome?_cons] at hstop
    have ha := hgood a List.mem_cons_self
    cases hk : stop a with
    | some j =>
      rw [hk] at hstop
      cases hstop
      obtain ⟨e, hstep, hkind⟩ := h.stops hs ha hk
      refine ⟨e, ?_, hkind⟩
      rw [List.foldlM_cons, hstep]
      rfl
    | none =>
      rw [hk] at hstop
      obtain ⟨t, hstep, ht, -⟩ := h.goes hs ha hk
      obtain ⟨e, hrun, hkind⟩ := ih (fun b hb => hgood b (List.mem_cons_of_mem a hb)) hstop ht
      refine ⟨e, ?_, hkind⟩
      rw [List.foldlM_cons, hstep]
      exact hrun

end Lib
