import Mathlib.Data.Nat.Sqrt
import Mathlib.Logic.Function.Iterate
import Mathlib.Tactic.Linarith
import Mathlib.Tactic.Ring

set_option autoImplicit false

/-! # Newton's iteration for the square root

In whole numbers. A step never goes below the square root, and `excess` bounds by how much it stays above: less
than half of what it was before, and no more than its square over twice the root. -/

namespace NewtonSqrt

variable {m l d S : Nat}

/-- One step. -/
def newton (m l : Nat) : Nat := (l + m / l) / 2

/-- A bound of what a step leaves above a root of at least `S`, from `d` on. -/
def excess (S d : Nat) : Nat := d * d / (2 * (S + d)) + 1

theorem sqrt_le_newton (hl : 0 < l) : m.sqrt ≤ newton m l := by
  have hsq : m.sqrt * m.sqrt ≤ m := Nat.sqrt_le m
  have hpos := Nat.zero_le (m / l)
  have hsum : 2 * m.sqrt ≤ l + m / l := by
    by_cases hle : 2 * m.sqrt ≤ l
    · omega
    · obtain ⟨t, ht⟩ : ∃ t, 2 * m.sqrt = l + t := ⟨2 * m.sqrt - l, by omega⟩
      -- the geometric mean of `l` and `t` is at most the arithmetic one, which is the root
      have hmean : 4 * t * l ≤ (t + l) ^ 2 := four_mul_le_sq_add t l
      have hroot : (t + l) ^ 2 = 4 * (m.sqrt * m.sqrt) := by
        rw [Nat.add_comm t l, ← ht]
        ring
      have hprod : t * l ≤ m := by nlinarith
      have hdiv := (Nat.le_div_iff_mul_le hl).mpr hprod
      omega
  unfold newton
  omega

/-- The bound bounds the square over twice the root, from any smaller start and for any greater root. -/
theorem lt_excess {s e : Nat} (hS : 0 < S) (hroot : S ≤ s) (hed : e ≤ d) :
    e * e < 2 * excess S d * (s + e) := by
  have hbound : d * d < 2 * (S + d) * excess S d := Nat.lt_mul_div_succ _ (by omega)
  have hmono : e * e * (S + d) ≤ d * d * (s + e) := by
    have hleft : e * e * S ≤ d * d * s := Nat.mul_le_mul (Nat.mul_le_mul hed hed) hroot
    have hright : e * d * e ≤ e * d * d := Nat.mul_le_mul_left _ hed
    nlinarith
  have hpos : 0 < s + e := by omega
  refine Nat.lt_of_mul_lt_mul_right (a := S + d) ?_
  calc e * e * (S + d) ≤ d * d * (s + e) := hmono
    _ < 2 * (S + d) * excess S d * (s + e) := Nat.mul_lt_mul_of_pos_right hbound hpos
    _ = 2 * excess S d * (s + e) * (S + d) := by ring

/-- What is left above the root after a step. -/
theorem newton_le (hS : 0 < S) (hroot : S ≤ m.sqrt) (hge : m.sqrt ≤ l) (hle : l ≤ m.sqrt + d) :
    newton m l ≤ m.sqrt + excess S d := by
  have hm : m < (m.sqrt + 1) * (m.sqrt + 1) := Nat.lt_succ_sqrt m
  have hexcess := lt_excess (d := d) (e := l - m.sqrt) hS hroot (by omega)
  obtain ⟨e, he⟩ : ∃ e, l = m.sqrt + e := ⟨l - m.sqrt, by omega⟩
  rw [he, Nat.add_sub_cancel_left] at hexcess
  have hprod : (m : Int) < (2 * m.sqrt + 2 * excess S d + 2 - l) * l := by
    subst he
    push_cast
    zify at hm hexcess
    nlinarith
  have hquot : (m : Int) / l < 2 * m.sqrt + 2 * excess S d + 2 - l :=
    Int.ediv_lt_of_lt_mul (by omega) hprod
  unfold newton
  omega

/-- What is left above the root after some steps. -/
theorem newton_iterate (hS : 0 < S) (hroot : S ≤ m.sqrt) (n : Nat) (hge : m.sqrt ≤ l) (hle : l ≤ m.sqrt + d) :
    m.sqrt ≤ (newton m)^[n] l ∧ (newton m)^[n] l ≤ m.sqrt + (excess S)^[n] d := by
  induction n generalizing l d with
  | zero => exact ⟨hge, hle⟩
  | succ n ih => exact ih (sqrt_le_newton (by omega)) (newton_le hS hroot hge hle)

end NewtonSqrt
