import Mathlib.Algebra.Order.Ring.Nat
import Mathlib.Tactic.Common

set_option autoImplicit false

/-! # Smearing bits

Rounding up to a power of two by shifts: a number is united with itself shifted right by 1, 2, 4, …, until
every bit below its highest one is set. -/

namespace BitSmear

variable {d k y z : ℕ}

/-- The bits of `z` are those of `y`, each smeared over the `d` places up to it. -/
def Covers (d y z : ℕ) : Prop := ∀ i, z.testBit i = true ↔ ∃ e < d, y.testBit (i + e) = true

theorem covers_one (y : ℕ) : Covers 1 y y := by
  intro i
  simp

/-- A shift by `d` doubles what is covered. -/
theorem Covers.double (h : Covers d y z) : Covers (2 * d) y (z ||| z >>> d) := by
  intro i
  rw [Nat.testBit_or, Nat.testBit_shiftRight, Bool.or_eq_true, h i, h (d + i)]
  constructor
  · rintro (⟨e, he, hbit⟩ | ⟨e, he, hbit⟩)
    · exact ⟨e, by omega, hbit⟩
    · refine ⟨d + e, by omega, ?_⟩
      rwa [show i + (d + e) = d + i + e by omega]
  · rintro ⟨e, he, hbit⟩
    rcases Nat.lt_or_ge e d with hlt | hge
    · exact Or.inl ⟨e, hlt, hbit⟩
    · refine Or.inr ⟨e - d, by omega, ?_⟩
      rwa [show d + i + (e - d) = i + e by omega]

/-- Once everything below the highest bit is covered, the number is one below a power of two. -/
theorem Covers.eq_two_pow_sub_one (h : Covers d y z) (hle : 2 ^ k ≤ y) (hlt : y < 2 ^ (k + 1))
    (hk : k < d) : z = 2 ^ (k + 1) - 1 := by
  refine Nat.eq_of_testBit_eq fun i => ?_
  have htop : y.testBit k = true := by
    obtain ⟨i, hi, hbit⟩ := Nat.exists_ge_and_testBit_of_ge_two_pow hle
    rcases Nat.lt_or_ge k i with hki | hik
    · have hzero := Nat.testBit_lt_two_pow (hlt.trans_le (Nat.pow_le_pow_right (by omega) hki))
      simp [hzero] at hbit
    · rwa [show k = i by omega]
  rw [Nat.testBit_two_pow_sub_one, Bool.eq_iff_iff, h i, decide_eq_true_iff]
  constructor
  · rintro ⟨e, -, hbit⟩
    by_contra hi
    have hzero := Nat.testBit_lt_two_pow (i := i + e)
      (hlt.trans_le (Nat.pow_le_pow_right (by omega) (by omega)))
    simp [hzero] at hbit
  · intro hi
    refine ⟨k - i, by omega, ?_⟩
    rwa [show i + (k - i) = k by omega]

end BitSmear
