/-!
# Monitors of event logs

A monitor reads a log event by event and stops at the first event its
state does not allow; a log it reads to the end is safe. `watch_run` is how
a monitor is shown to read the log of every run of a system: by a relation
between the states of the two that every step keeps.

A system that is a list of components logs events with the index of the
component. `component` is a monitor of one component's events.
-/

namespace Lib

variable {M E : Type _}

/-- The monitor's state behind a log, or `none` if it stopped. -/
def watch (δ : M → E → Option M) (m : M) (es : List E) : Option M := es.foldlM δ m

/-- The monitor reads the log to the end. -/
def Accepts (δ : M → E → Option M) (m : M) (es : List E) : Prop := ∃ m', watch δ m es = some m'

theorem watch_cons (δ : M → E → Option M) (m : M) (e : E) (es : List E) :
    watch δ m (e :: es) = (δ m e).bind fun m => watch δ m es := rfl

theorem watch_append {δ : M → E → Option M} {m m' : M} {es es' : List E}
    (h : watch δ m es = some m') : watch δ m (es ++ es') = watch δ m' es' := by
  unfold watch at h ⊢
  rw [List.foldlM_append, h]
  rfl

/-! ## Runs -/

section

variable {S A F : Type _} (step : S → A → List E × Except F S)

/-- A run: its log, and the state it ends in. A step that fails ends the
run, and what it has logged before is in the log. -/
def run : S → List A → List E × Except F S
  | s, [] => ([], .ok s)
  | s, a :: as =>
    match step s a with
    | (es, .error f) => (es, .error f)
    | (es, .ok s') =>
      let (es', result) := run s' as
      (es ++ es', result)

/-- Every step that a run takes meets the condition. -/
def EachStep (P : S → A → Prop) : S → List A → Prop
  | _, [] => True
  | s, a :: as => P s a ∧
    match (step s a).2 with
    | .error _ => True
    | .ok s' => EachStep P s' as

variable {step}

/-- A run goes on behind a step that has returned. -/
theorem run_cons_eq {s s' : S} {a : A} {es : List E} (h : step s a = (es, .ok s')) (as : List A) :
    run step s (a :: as) = (es ++ (run step s' as).1, (run step s' as).2) := by
  rw [run, h]

/-- **A monitor that every step keeps up with reads the log of every run**,
and is related to the state the run ends in. -/
theorem watch_run {δ : M → E → Option M} {P : S → A → Prop} {R : S → M → Prop}
    (hstep : ∀ s m a, R s m → P s a → ∃ m', watch δ m (step s a).1 = some m' ∧
      ∀ s', (step s a).2 = .ok s' → R s' m')
    {s : S} {m : M} (hR : R s m) {as : List A} (h : EachStep step P s as) :
    ∃ m', watch δ m (run step s as).1 = some m' ∧
      ∀ s', (run step s as).2 = .ok s' → R s' m' := by
  induction as generalizing s m with
  | nil =>
    refine ⟨m, rfl, fun s' hs' => ?_⟩
    cases hs'
    exact hR
  | cons a as ih =>
    obtain ⟨hP, hrest⟩ := h
    obtain ⟨m', hwatch, hR'⟩ := hstep s m a hR hP
    rw [run]
    rcases hs : step s a with ⟨es, f | s'⟩
    · rw [hs] at hwatch
      exact ⟨m', hwatch, fun s' hs' => nomatch hs'⟩
    · rw [hs] at hwatch hR' hrest
      obtain ⟨m'', hlog, hend⟩ := ih (hR' s' rfl) hrest
      exact ⟨m'', (watch_append hwatch).trans hlog, hend⟩

/-- **A monitor that keeps up with a step exactly if it meets the condition
reads the log of a run exactly if each step does.** -/
theorem accepts_run_iff {δ : M → E → Option M} {P : S → A → Prop} {R : S → M → Prop}
    (hstep : ∀ s m a, R s m → (¬ P s a ∧ watch δ m (step s a).1 = none) ∨
      (P s a ∧ ∃ m', watch δ m (step s a).1 = some m' ∧
        ∀ s', (step s a).2 = .ok s' → R s' m'))
    {s : S} {m : M} (hR : R s m) (as : List A) :
    Accepts δ m (run step s as).1 ↔ EachStep step P s as := by
  induction as generalizing s m with
  | nil => exact iff_of_true ⟨m, rfl⟩ trivial
  | cons a as ih =>
    have hlog : (run step s (a :: as)).1 = (step s a).1 ++ match (step s a).2 with
        | .error _ => []
        | .ok s' => (run step s' as).1 := by
      rw [run]
      rcases step s a with ⟨es, f | s'⟩
      · exact (List.append_nil es).symm
      · rfl
    rcases hstep s m a hR with ⟨hP, hstops⟩ | ⟨hP, m', hwatch, hR'⟩
    · refine iff_of_false ?_ fun heach => hP heach.1
      rintro ⟨m', hreads⟩
      rw [hlog, watch, List.foldlM_append] at hreads
      rw [watch] at hstops
      rw [hstops] at hreads
      cases hreads
    · unfold Accepts EachStep
      rw [hlog, watch_append hwatch]
      rcases hs : (step s a).2 with f | s'
      · exact iff_of_true ⟨m', rfl⟩ ⟨hP, trivial⟩
      · exact (ih (hR' s' hs)).trans (iff_and_self.mpr fun _ => hP)

/-- **Steps that return, and that a monitor keeps up with, make runs that
return** and that the monitor reads. -/
theorem run_returns {δ : M → E → Option M} {P : S → A → Prop} {R : S → M → Prop}
    (hstep : ∀ s m a, R s m → P s a → ∃ m' s', watch δ m (step s a).1 = some m' ∧
      (step s a).2 = .ok s' ∧ R s' m')
    {s : S} {m : M} (hR : R s m) {as : List A} (h : EachStep step P s as) :
    ∃ m' s', watch δ m (run step s as).1 = some m' ∧ (run step s as).2 = .ok s' ∧ R s' m' := by
  induction as generalizing s m with
  | nil => exact ⟨m, s, rfl, rfl, hR⟩
  | cons a as ih =>
    obtain ⟨hP, hrest⟩ := h
    obtain ⟨m', s', hwatch, hs', hR'⟩ := hstep s m a hR hP
    have hstep' : step s a = ((step s a).1, .ok s') := Prod.ext rfl hs'
    rw [hs'] at hrest
    obtain ⟨m'', s'', hlog, hend, hR''⟩ := ih hR' hrest
    refine ⟨m'', s'', ?_, ?_, hR''⟩
    · rw [run_cons_eq hstep']
      exact (watch_append hwatch).trans hlog
    · rw [run_cons_eq hstep']
      exact hend

/-- What every step keeps holds where a run ends. A state reached on the
way is where a shorter run ends. -/
theorem run_keeps {P : S → A → Prop} {Inv : S → Prop}
    (hstep : ∀ s a s', Inv s → P s a → (step s a).2 = .ok s' → Inv s')
    {s s' : S} {as : List A} (h : EachStep step P s as) (hr : (run step s as).2 = .ok s')
    (hinv : Inv s) : Inv s' := by
  induction as generalizing s with
  | nil =>
    cases hr
    exact hinv
  | cons a as ih =>
    obtain ⟨hP, hrest⟩ := h
    rw [run] at hr
    rcases hs : step s a with ⟨es, f | s₁⟩
    · rw [hs] at hr
      cases hr
    · rw [hs] at hr hrest
      apply ih hrest hr
      exact hstep s a s₁ hinv hP (by rw [hs])

/-- A condition that the steps meet in every state. -/
theorem eachStep_of_mem {P : S → A → Prop} {as : List A} (h : ∀ a ∈ as, ∀ s, P s a) (s : S) :
    EachStep step P s as := by
  induction as generalizing s with
  | nil => trivial
  | cons a as ih =>
    refine ⟨h a List.mem_cons_self s, ?_⟩
    split
    · trivial
    · exact ih (fun a' ha' => h a' (List.mem_cons_of_mem a ha')) _

/-- The state it ends in. -/
theorem run_cons {s s' : S} {a : A} (h : (step s a).2 = .ok s') (as : List A) :
    (run step s (a :: as)).2 = (run step s' as).2 := by
  have hstep : step s a = ((step s a).1, .ok s') := Prod.ext rfl h
  rw [run_cons_eq hstep]

/-- A run over two stretches. -/
theorem run_append_eq (s : S) (as bs : List A) : run step s (as ++ bs) =
    match run step s as with
    | (es, .error f) => (es, .error f)
    | (es, .ok s') => (es ++ (run step s' bs).1, (run step s' bs).2) := by
  induction as generalizing s with
  | nil => rfl
  | cons a as ih =>
    rw [List.cons_append, run, run]
    rcases step s a with ⟨es, f | s₁⟩
    · rfl
    · simp only [ih s₁]
      rcases run step s₁ as with ⟨es', f | s₂⟩
      · rfl
      · simp only [List.append_assoc]

/-- A run goes on behind one that has returned. -/
theorem run_append {s s' : S} {as : List A} (h : (run step s as).2 = .ok s') (bs : List A) :
    (run step s (as ++ bs)).2 = (run step s' bs).2 := by
  rw [run_append_eq]
  rcases hrun : run step s as with ⟨es, f | s₁⟩
  · rw [hrun] at h
    cases h
  · rw [hrun] at h
    cases h
    rfl

end

/-! ## Components -/

/-- The monitor of one component of a list. -/
def component (δ : M → E → Option M) (i : Nat) (m : M) : Nat × E → Option M
  | (j, e) => if j = i then δ m e else some m

/-- The events of the components from `k` on, with their indices. -/
def tagged : Nat → List (List E) → List (Nat × E)
  | _, [] => []
  | k, es :: ess => es.map (fun e => (k, e)) ++ tagged (k + 1) ess

theorem watch_own (δ : M → E → Option M) (i : Nat) (m : M) (es : List E) :
    watch (component δ i) m (es.map fun e => (i, e)) = watch δ m es := by
  induction es generalizing m with
  | nil => rfl
  | cons e es ih =>
    rw [List.map_cons, watch_cons, watch_cons, component, if_pos rfl]
    cases δ m e with
    | none => rfl
    | some m' => exact ih m'

theorem watch_other (δ : M → E → Option M) {i j : Nat} (h : j ≠ i) (m : M) (es : List E) :
    watch (component δ i) m (es.map fun e => (j, e)) = some m := by
  induction es with
  | nil => rfl
  | cons e es ih =>
    rw [List.map_cons, watch_cons, component, if_neg h]
    exact ih

theorem watch_behind (δ : M → E → Option M) {i k : Nat} (h : i < k) (m : M)
    (ess : List (List E)) : watch (component δ i) m (tagged k ess) = some m := by
  induction ess generalizing k with
  | nil => rfl
  | cons es ess ih =>
    rw [tagged, watch_append (watch_other δ (by omega) m es)]
    exact ih (by omega)

/-- A monitor reads the events of its component alone. -/
theorem watch_tagged {δ : M → E → Option M} {i k : Nat} {m m' : M} {ess : List (List E)}
    (h : watch δ m (ess[i]?.getD []) = some m') :
    watch (component δ (k + i)) m (tagged k ess) = some m' := by
  induction ess generalizing i k with
  | nil => exact h
  | cons es ess ih =>
    rw [tagged]
    cases i with
    | zero =>
      rw [Nat.add_zero, watch_append ((watch_own δ k m es).trans h)]
      exact watch_behind δ (by omega) m' ess
    | succ i =>
      rw [watch_append (watch_other δ (by omega) m es), show k + (i + 1) = k + 1 + i by omega]
      exact ih h

end Lib
