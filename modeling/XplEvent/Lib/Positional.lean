import Mathlib.Data.Nat.Digits.Defs
import Mathlib.Data.Int.ModEq

/-!
# Numerals of a fixed width

The last `k` digits of a number in base `b`, the most significant one
first. They say what the number is modulo `b ^ k`, so that they tell apart
two numbers that are less than `b ^ k` away from each other.
-/

namespace Lib

/-- The last `k` digits of `v`. -/
def lowDigits (b : Nat) : Nat → Nat → List Nat
  | 0, _ => []
  | k + 1, v => lowDigits b k (v / b) ++ [v % b]

@[simp] theorem lowDigits_length (b k v : Nat) : (lowDigits b k v).length = k := by
  induction k generalizing v with
  | zero => rfl
  | succ k ih => rw [lowDigits, List.length_append, ih, List.length_singleton]

theorem lowDigits_lt {b : Nat} (hb : 0 < b) (k v : Nat) : ∀ d ∈ lowDigits b k v, d < b := by
  induction k generalizing v with
  | zero => exact fun d hd => absurd hd List.not_mem_nil
  | succ k ih =>
    intro d hd
    rcases List.mem_append.mp hd with hd | hd
    · exact ih (v / b) d hd
    · rw [List.mem_singleton.mp hd]
      exact Nat.mod_lt v hb

theorem lowDigits_zero (b k : Nat) : lowDigits b k 0 = List.replicate k 0 := by
  induction k with
  | zero => rfl
  | succ k ih => rw [lowDigits, Nat.zero_div, Nat.zero_mod, ih, ← List.replicate_succ']

/-- **What the digits read as.** -/
theorem ofDigits_lowDigits (b k v : Nat) :
    Nat.ofDigits b (lowDigits b k v).reverse = v % b ^ k := by
  induction k generalizing v with
  | zero => rw [Nat.pow_zero, Nat.mod_one]; rfl
  | succ k ih =>
    rw [lowDigits, List.reverse_append, List.reverse_singleton, List.singleton_append,
      Nat.ofDigits_cons, ih, Nat.pow_succ', Nat.mod_mul]

/-- Numbers that agree modulo `m` and are less than `m` apart are equal. -/
theorem eq_of_mod_eq {m v w : Nat} (hmod : v % m = w % m) (hvw : v < w + m) (hwv : w < v + m) :
    v = w := by
  obtain ⟨c, hc⟩ := (Nat.modEq_iff_dvd.mp hmod : (m : Int) ∣ w - v)
  have hpos : (0 : Int) < m := by omega
  have hc0 : c = 0 := by
    have hlt : (m : Int) * c < m * 1 := by omega
    have hgt : (m : Int) * (-1) < m * c := by omega
    have h1 := lt_of_mul_lt_mul_left hlt hpos.le
    have h2 := lt_of_mul_lt_mul_left hgt hpos.le
    omega
  rw [hc0] at hc
  omega

end Lib
