/-!
# Loops with a turn function

A loop whose body either goes round again with a new state or leaves
with a result, run for at most `fuel` turns. `Reaches` is how a proof
about one stretch of a loop is put together with the next: the loop
started in one state behaves as the loop started in the other, some
turns later. It asks for one turn that is left, so that a state in which
the loop leaves may stand for the turn that left it.
-/

namespace Lib

variable {S R : Type _}

/-- What one turn of a loop does. -/
inductive Turn (S R : Type _)
  | again (s : S)
  | done (r : R)

/-- The loop: `none` when the fuel does not suffice. -/
def loop (turn : S → Turn S R) : Nat → S → Option R
  | 0, _ => none
  | fuel + 1, s =>
    match turn s with
    | .again s => loop turn fuel s
    | .done r => some r

variable {turn : S → Turn S R}

theorem loop_done {s : S} {r : R} (h : turn s = .done r) {fuel : Nat} (hf : 0 < fuel) :
    loop turn fuel s = some r := by
  obtain ⟨n, rfl⟩ : ∃ n, fuel = n + 1 := ⟨fuel - 1, by omega⟩
  rw [loop, h]

/-- More fuel does not change a result. -/
theorem loop_mono {fuel fuel' : Nat} {s : S} {r : R} (h : loop turn fuel s = some r)
    (hle : fuel ≤ fuel') : loop turn fuel' s = some r := by
  induction fuel generalizing fuel' s with
  | zero => cases h
  | succ fuel ih =>
    obtain ⟨n, rfl⟩ : ∃ n, fuel' = n + 1 := ⟨fuel' - 1, by omega⟩
    rw [loop] at h ⊢
    cases hturn : turn s with
    | again s' =>
      rw [hturn] at h
      exact ih h (Nat.le_of_succ_le_succ hle)
    | done r' =>
      rw [hturn] at h
      exact h

/-- What holds of a state and the result it leaves with, and is carried
back over a turn, holds of a start and its result. -/
theorem loop_relates {Q : S → R → Prop} (hdone : ∀ s r, turn s = .done r → Q s r)
    (hagain : ∀ s s' r, turn s = .again s' → Q s' r → Q s r) {fuel : Nat} {s : S} {r : R}
    (h : loop turn fuel s = some r) : Q s r := by
  induction fuel generalizing s with
  | zero => cases h
  | succ fuel ih =>
    rw [loop] at h
    cases hturn : turn s with
    | done r' =>
      rw [hturn] at h
      cases h
      exact hdone s r hturn
    | again s' =>
      rw [hturn] at h
      exact hagain s s' r hturn (ih h)

/-- Two turns do the same, up to a relation of the states and one of the
results. -/
inductive Turn.Related {S' R' : Type _} (Q : S → S' → Prop) (T : R → R' → Prop) :
    Turn S R → Turn S' R' → Prop
  | again {s : S} {s' : S'} (h : Q s s') : Related Q T (.again s) (.again s')
  | done {r : R} {r' : R'} (h : T r r') : Related Q T (.done r) (.done r')

/-- Two loops whose turns do the same leave with the same. -/
theorem loop_related {S' R' : Type _} {turn' : S' → Turn S' R'} {Q : S → S' → Prop}
    {T : R → R' → Prop} (h : ∀ s s', Q s s' → (turn s).Related Q T (turn' s')) (fuel : Nat) {s : S}
    {s' : S'} (hs : Q s s') : Option.Rel T (loop turn fuel s) (loop turn' fuel s') := by
  induction fuel generalizing s s' with
  | zero => exact .none
  | succ fuel ih =>
    have hturn := h s s' hs
    rw [loop, loop]
    generalize turn s = t at hturn ⊢
    generalize turn' s' = t' at hturn ⊢
    cases hturn with
    | again hnext => exact ih hnext
    | done hresult => exact .some hresult

variable (turn) in
/-- From `s` the loop gets to `s'` in `n` turns. -/
def Reaches (n : Nat) (s s' : S) : Prop :=
  ∀ fuel, 0 < fuel → loop turn (fuel + n) s = loop turn fuel s'

variable (turn) in
/-- The states a loop started in `s` comes through. -/
inductive Visits (s : S) : S → Prop
  | start : Visits s s
  | again {s' s'' : S} (h : Visits s s') (hturn : turn s' = .again s'') : Visits s s''

/-- What every turn keeps holds of every state the loop comes through. -/
theorem Visits.invariant {P : S → Prop} {s s' : S} (h : Visits turn s s') (hs : P s)
    (hturn : ∀ s s', P s → turn s = .again s' → P s') : P s' := by
  induction h with
  | start => exact hs
  | again _ hagain ih => exact hturn _ _ ih hagain

/-! ## Loops that go forward -/

variable (turn) in
/-- The states a loop turns in, one after the other. -/
def trail : Nat → S → List S
  | 0, _ => []
  | fuel + 1, s => s ::
    match turn s with
    | .again s' => trail fuel s'
    | .done _ => []

variable (turn) in
/-- Each turn that goes round again goes forward, and not from the end. -/
def GoesForward (position : S → Nat) (last : Nat) : Prop :=
  ∀ s s', turn s = .again s' → position s < last ∧ position s < position s'

namespace GoesForward

variable {position : S → Nat} {last : Nat}

/-- A loop that goes forward leaves after as many turns as there are
positions before it. -/
theorem terminates (h : GoesForward turn position last) {fuel : Nat} {s : S}
    (hfuel : last - position s < fuel) : ∃ r, loop turn fuel s = some r := by
  induction fuel generalizing s with
  | zero => omega
  | succ fuel ih =>
    rw [loop]
    cases hturn : turn s with
    | done r => exact ⟨r, rfl⟩
    | again s' =>
      obtain ⟨hlast, hlt⟩ := h s s' hturn
      exact ih (by omega)

theorem le_of_mem_trail (h : GoesForward turn position last) {fuel : Nat} {s s' : S}
    (hmem : s' ∈ trail turn fuel s) : position s ≤ position s' := by
  induction fuel generalizing s with
  | zero => cases hmem
  | succ fuel ih =>
    rw [trail] at hmem
    rcases List.mem_cons.mp hmem with rfl | hmem
    · exact Nat.le_refl _
    · cases hturn : turn s with
      | done r =>
        rw [hturn] at hmem
        cases hmem
      | again s₁ =>
        rw [hturn] at hmem
        have hlt := (h s s₁ hturn).2
        have hle := ih hmem
        omega

/-- It comes to no position twice. -/
theorem trail_pairwise (h : GoesForward turn position last) (fuel : Nat) (s : S) :
    (trail turn fuel s).Pairwise fun s s' => position s < position s' := by
  induction fuel generalizing s with
  | zero => exact .nil
  | succ fuel ih =>
    rw [trail]
    cases hturn : turn s with
    | done r => exact List.pairwise_singleton ..
    | again s₁ =>
      refine .cons (fun s' hs' => ?_) (ih s₁)
      exact Nat.lt_of_lt_of_le (h s s₁ hturn).2 (h.le_of_mem_trail hs')

end GoesForward

namespace Reaches

theorem refl (s : S) : Reaches turn 0 s s := fun _ _ => rfl

theorem again {s s' : S} (h : turn s = .again s') : Reaches turn 1 s s' := by
  intro fuel _
  rw [loop, h]

/-- A turn that leaves with the result another state leaves with. -/
theorem done {s s' : S} {r : R} (h : turn s = .done r) (h' : turn s' = .done r) :
    Reaches turn 1 s s' := by
  intro fuel hf
  rw [loop_done h (by omega), loop_done h' hf]

theorem trans {n m : Nat} {s s' s'' : S} (h : Reaches turn n s s') (h' : Reaches turn m s' s'') :
    Reaches turn (n + m) s s'' := by
  intro fuel hf
  rw [Nat.add_comm n m, ← Nat.add_assoc, h _ (by omega), h' fuel hf]

/-- A loop that gets to a state where it leaves has a result for every
larger amount of fuel. -/
theorem result {n : Nat} {s s' : S} {r : R} (h : Reaches turn n s s') (h' : turn s' = .done r)
    {fuel : Nat} (hf : n < fuel) : loop turn fuel s = some r := by
  rw [show fuel = (fuel - n) + n by omega, h _ (by omega), loop_done h' (by omega)]

end Reaches

end Lib
