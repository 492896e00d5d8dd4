/-!
# Commands that may halt

A command takes a state to a state, and may leave one in which nothing
more is done. `Triple P f Q`: from a state with `P` in which something can
still be done, `f` leaves such a state with `Q`. The rules follow the ways
commands are put together: one behind the other, and two behind a test.
-/

namespace Lib

variable {S : Type _} {halted : S → Bool} {P P' Q Q' R : S → Prop}

variable (halted) in
/-- `g` behind `f`, unless `f` halts. -/
def andThen (f g : S → S) (s : S) : S := if halted (f s) then f s else g (f s)

variable (halted) in
/-- The command for the answer of a test, unless the test halts. -/
def branch (t : S → Bool × S) (f g : S → S) (s : S) : S :=
  if halted (t s).2 then (t s).2 else if (t s).1 then f (t s).2 else g (t s).2

variable (halted) in
def Triple (P : S → Prop) (f : S → S) (Q : S → Prop) : Prop :=
  ∀ s, halted s = false → P s → halted (f s) = false ∧ Q (f s)

variable (halted) in
/-- The same for a test, whose answer the second condition is told. -/
def TestTriple (P : S → Prop) (t : S → Bool × S) (Q : Bool → S → Prop) : Prop :=
  ∀ s, halted s = false → P s → halted (t s).2 = false ∧ Q (t s).1 (t s).2

theorem Triple.skip : Triple halted P id P := fun _ hrun hs => ⟨hrun, hs⟩

theorem Triple.andThen {f g : S → S} (hf : Triple halted P f Q) (hg : Triple halted Q g R) :
    Triple halted P (andThen halted f g) R := by
  intro s hrun hs
  obtain ⟨hrun', hq⟩ := hf s hrun hs
  rw [Lib.andThen, hrun', if_neg Bool.false_ne_true]
  exact hg (f s) hrun' hq

theorem Triple.branch {t : S → Bool × S} {f g : S → S} {T : Bool → S → Prop}
    (ht : TestTriple halted P t T) (hf : Triple halted (T true) f Q)
    (hg : Triple halted (T false) g Q) : Triple halted P (branch halted t f g) Q := by
  intro s hrun hs
  obtain ⟨hrun', hanswer⟩ := ht s hrun hs
  rw [Lib.branch, hrun', if_neg Bool.false_ne_true]
  cases hb : (t s).1 with
  | true =>
    rw [hb] at hanswer
    exact hf (t s).2 hrun' hanswer
  | false =>
    rw [hb] at hanswer
    exact hg (t s).2 hrun' hanswer

/-- Where the state decides between two conditions. -/
theorem Triple.cases {f : S → S} {c : Prop} (h : c → Triple halted P f Q)
    (h' : ¬ c → Triple halted P f Q) : Triple halted P f Q := by
  by_cases hc : c
  · exact h hc
  · exact h' hc

end Lib
