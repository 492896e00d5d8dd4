/-!
# Rows of words and their bits

A row of words of `w` bits has its bits in one order: word after word, and
in a word from one end to the other. The first `n` bits are all the bits of
the first `n / w` words and the first `n % w` of the next. Which these are
depends on the end a word is read from; whole words do not depend on it.
-/

namespace Lib

variable {w : Nat}

/-- The places below `n`, word by word. -/
theorem forall_place_iff (hw : 0 < w) {P : Nat → Nat → Prop} (n : Nat) :
    (∀ i < n, P (i / w) (i % w)) ↔
      (∀ k < n / w, ∀ b < w, P k b) ∧ ∀ b < n % w, P (n / w) b := by
  have hplace : ∀ k b, b < w → (w * k + b) / w = k ∧ (w * k + b) % w = b := by
    intro k b hb
    rw [Nat.mul_add_div hw, Nat.mul_add_mod, Nat.div_eq_of_lt hb, Nat.mod_eq_of_lt hb]
    exact ⟨rfl, rfl⟩
  have hn := Nat.div_add_mod n w
  constructor
  · intro h
    constructor
    · intro k hk b hb
      have hbelow : w * k + b < n := by
        have hmul : w * (k + 1) ≤ w * (n / w) := Nat.mul_le_mul_left w hk
        rw [Nat.mul_succ] at hmul
        omega
      have hi := h (w * k + b) hbelow
      rw [(hplace k b hb).1, (hplace k b hb).2] at hi
      exact hi
    · intro b hb
      have hlt : b < w := Nat.lt_trans hb (Nat.mod_lt n hw)
      have hi := h (w * (n / w) + b) (by omega)
      rw [(hplace (n / w) b hlt).1, (hplace (n / w) b hlt).2] at hi
      exact hi
  · rintro ⟨hwhole, hrest⟩ i hi
    have hle : i / w ≤ n / w := Nat.div_le_div_right (Nat.le_of_lt hi)
    rcases Nat.lt_or_eq_of_le hle with hlt | heq
    · exact hwhole (i / w) hlt (i % w) (Nat.mod_lt i hw)
    · have hb : i % w < n % w := by
        have hi' := Nat.div_add_mod i w
        rw [heq] at hi'
        omega
      rw [heq]
      exact hrest (i % w) hb

/-- The first `n` bits of two rows agree, each word read from its most
significant bit. -/
def AgreeMsb (n : Nat) (x y : Nat → BitVec w) : Prop :=
  ∀ i < n, (x (i / w)).getMsbD (i % w) = (y (i / w)).getMsbD (i % w)

/-- The first `n` bits of two rows agree, each word read from its least
significant bit. -/
def AgreeLsb (n : Nat) (x y : Nat → BitVec w) : Prop :=
  ∀ i < n, (x (i / w)).getLsbD (i % w) = (y (i / w)).getLsbD (i % w)

/-- The `r` most significant bits of two words agree. -/
def HighAgree (r : Nat) (x y : BitVec w) : Prop := ∀ b < r, x.getMsbD b = y.getMsbD b

/-- The `r` least significant bits of two words agree. -/
def LowAgree (r : Nat) (x y : BitVec w) : Prop := ∀ b < r, x.getLsbD b = y.getLsbD b

instance (r : Nat) (x y : BitVec w) : Decidable (HighAgree r x y) :=
  inferInstanceAs (Decidable (∀ _ < _, _))

instance (r : Nat) (x y : BitVec w) : Decidable (LowAgree r x y) :=
  inferInstanceAs (Decidable (∀ _ < _, _))

theorem highAgree_all (x y : BitVec w) : HighAgree w x y ↔ x = y := by
  constructor
  · intro h
    apply BitVec.eq_of_getMsbD_eq
    intro b hb
    exact h b hb
  · rintro rfl b -
    rfl

theorem lowAgree_all (x y : BitVec w) : LowAgree w x y ↔ x = y := by
  constructor
  · intro h
    apply BitVec.eq_of_getLsbD_eq
    intro b hb
    exact h b hb
  · rintro rfl b -
    rfl

theorem agreeMsb_iff (hw : 0 < w) (n : Nat) (x y : Nat → BitVec w) :
    AgreeMsb n x y ↔ (∀ k < n / w, x k = y k) ∧ HighAgree (n % w) (x (n / w)) (y (n / w)) := by
  have hplaces := forall_place_iff hw (P := fun k b => (x k).getMsbD b = (y k).getMsbD b) n
  refine hplaces.trans (and_congr_left fun _ => ?_)
  exact forall_congr' fun k => imp_congr_right fun _ => highAgree_all (x k) (y k)

theorem agreeLsb_iff (hw : 0 < w) (n : Nat) (x y : Nat → BitVec w) :
    AgreeLsb n x y ↔ (∀ k < n / w, x k = y k) ∧ LowAgree (n % w) (x (n / w)) (y (n / w)) := by
  have hplaces := forall_place_iff hw (P := fun k b => (x k).getLsbD b = (y k).getLsbD b) n
  refine hplaces.trans (and_congr_left fun _ => ?_)
  exact forall_congr' fun k => imp_congr_right fun _ => lowAgree_all (x k) (y k)

/-- **The two readings of the first `n` bits agree exactly when** these
are whole words, a whole word differs, or the word they end in has its
high bits equal just when it has its low bits equal. -/
theorem readings_iff (hw : 0 < w) (n : Nat) (x y : Nat → BitVec w) :
    (AgreeLsb n x y ↔ AgreeMsb n x y) ↔
      n % w = 0 ∨ (∃ k < n / w, x k ≠ y k) ∨
        (LowAgree (n % w) (x (n / w)) (y (n / w)) ↔ HighAgree (n % w) (x (n / w)) (y (n / w))) := by
  rw [agreeLsb_iff hw, agreeMsb_iff hw]
  by_cases hwhole : ∀ k < n / w, x k = y k
  · have hnone : ¬ ∃ k < n / w, x k ≠ y k := fun ⟨k, hk, hne⟩ => hne (hwhole k hk)
    rw [and_iff_right hwhole, and_iff_right hwhole, or_iff_right hnone]
    refine ⟨.inr, fun h => h.elim (fun hzero => ?_) id⟩
    rw [hzero]
    exact iff_of_true (fun b hb => absurd hb (Nat.not_lt_zero b)) fun b hb =>
      absurd hb (Nat.not_lt_zero b)
  · obtain ⟨k, hk⟩ := Classical.not_forall.mp hwhole
    obtain ⟨hlt, hne⟩ := Classical.not_imp.mp hk
    exact iff_of_true (iff_of_false (fun h => hwhole h.1) fun h => hwhole h.1)
      (.inr (.inl ⟨k, hlt, hne⟩))

/-- **A mask of the first `n` places of a row**, counted from the least
significant bit of each word, compares the rows that far. -/
theorem masked_iff {m : Nat → BitVec w} {n len : Nat} (hw : 0 < w) (hn : n ≤ w * len)
    (hm : ∀ k b, b < w → (m k).getLsbD b = decide (w * k + b < n)) (x y : Nat → BitVec w) :
    (∀ k < len, x k &&& m k = y k &&& m k) ↔ AgreeLsb n x y := by
  constructor
  · intro h i hi
    have hk : i / w < len := Nat.div_lt_of_lt_mul (Nat.lt_of_lt_of_le hi hn)
    have hbit := congrArg (fun v => v.getLsbD (i % w)) (h (i / w) hk)
    have hset : (m (i / w)).getLsbD (i % w) = true := by
      rw [hm (i / w) (i % w) (Nat.mod_lt i hw), Nat.div_add_mod]
      exact decide_eq_true hi
    simpa only [BitVec.getLsbD_and, hset, Bool.and_true] using hbit
  · intro h k hk
    apply BitVec.eq_of_getLsbD_eq
    intro b hb
    rw [BitVec.getLsbD_and, BitVec.getLsbD_and, hm k b hb]
    by_cases hi : w * k + b < n
    · have hbit := h (w * k + b) hi
      rw [Nat.mul_add_div hw, Nat.mul_add_mod, Nat.div_eq_of_lt hb, Nat.mod_eq_of_lt hb,
        Nat.add_zero] at hbit
      rw [hbit]
    · rw [decide_eq_false hi, Bool.and_false, Bool.and_false]

end Lib
