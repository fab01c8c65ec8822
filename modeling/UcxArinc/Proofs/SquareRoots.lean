import Mathlib.Data.Nat.Log
import Mathlib.Tactic.IntervalCases
import UcxArinc.Implementation.Fixed
import UcxArinc.Library.NewtonSqrt

set_option autoImplicit false

/-! # The accuracy of `fix_sqrt`

With 16 fractional bits the root of `a` is the integer root of `a * 65536`, up to a few units. There are enough
iterations for an argument that is greater than one; a lesser one is inverted first and the root after. -/

namespace UcxArinc

namespace Fixed

open NewtonSqrt

variable {a k l m x y : Nat}

/-! ## The code in natural numbers -/

/-- A quotient that fits. -/
theorem fixDiv64_natCast (hy : 0 < y) (hq : x * 65536 / y < 2 ^ 31) :
    fixDiv64 16 x y = some ((x * 65536 / y : Nat) : Int) := by
  have hquot : ((x : Int) * 2 ^ fixFbits 16).tdiv y = ((x * 65536 / y : Nat) : Int) := by
    have hpow : (x : Int) * 2 ^ fixFbits 16 = (x * 65536 : Nat) := by
      rw [Nat.cast_mul]
      rfl
    rw [hpow, Int.ofNat_tdiv]
  unfold fixDiv64 int32
  rw [if_neg (by omega), hquot]
  generalize x * 65536 / y = q at hq
  rw [Int.bmod_eq_of_le (by omega) (by omega)]

theorem addInt32_natCast (h : x + y < 2 ^ 31) : addInt32 x y = some ((x + y : Nat) : Int) := by
  unfold addInt32
  rw [if_pos (by omega), Nat.cast_add]

/-- One iteration. -/
theorem sqrtLoop_step (hl : 0 < l) (hle : l ≤ 2 ^ 30) (hq : a * 65536 / l < 2 ^ 30) (itr : Nat) :
    sqrtLoop 16 a (itr + 1) l = sqrtLoop 16 a itr (newton (a * 65536) l : Nat) := by
  rw [sqrtLoop, fixDiv64_natCast hl (by omega), Option.bind_eq_bind, Option.bind_some, addInt32_natCast (by omega)]
  rfl

/-- Behind the root no quotient is much greater than the root. -/
theorem div_le_of_sqrt_le (hpos : 0 < m.sqrt) (hge : m.sqrt ≤ l) : m / l ≤ m.sqrt + 2 := by
  have hm : m < (m.sqrt + 1) * (m.sqrt + 1) := Nat.lt_succ_sqrt m
  have hless : m / m.sqrt < m.sqrt + 2 + 1 := by
    rw [Nat.div_lt_iff_lt_mul hpos]
    nlinarith
  exact Nat.le_of_lt_succ (Nat.lt_of_le_of_lt (Nat.div_le_div_left hge hpos) hless)

/-- The root of an argument, in units of the result. -/
theorem sqrt_lt (ha : a < 2 ^ 31) : (a * 65536).sqrt < 2 ^ 24 := by
  rw [Nat.sqrt_lt]
  omega

/-- From the root or above it the loop is Newton's iteration. -/
theorem sqrtLoop_eq (ha : a < 2 ^ 31) (hpos : 0 < (a * 65536).sqrt) (hge : (a * 65536).sqrt ≤ l) (hle : l ≤ 2 ^ 30)
    (itr : Nat) : sqrtLoop 16 a itr l = some (((newton (a * 65536))^[itr] l : Nat) : Int) := by
  induction itr generalizing l with
  | zero => rfl
  | succ itr ih =>
      have hroot := sqrt_lt ha
      have hquot := div_le_of_sqrt_le hpos hge
      have hnext : newton (a * 65536) l ≤ 2 ^ 30 := by
        unfold newton
        omega
      rw [sqrtLoop_step (by omega) hle (by omega), ih (sqrt_le_newton (by omega)) hnext, Function.iterate_succ_apply]

/-- How many iterations there are. -/
theorem itrLoop_eq (hge : 4 ^ k ≤ a) (hlt : a < 4 ^ (k + 1)) (turns itr : Nat) :
    itrLoop (turns + (k + 1) + 1) a itr = some (itr + (k + 1)) := by
  have hpos : (a : Int) > 0 := by
    have hpow := Nat.pow_pos (n := k) (show 0 < 4 by decide)
    omega
  have hquot : (a : Int) / 4 = (a / 4 : Nat) := by omega
  induction k generalizing a itr with
  | zero =>
      have hzero : a / 4 = 0 := by omega
      rw [itrLoop, if_pos hpos, hquot, hzero]
      rfl
  | succ k ih =>
      have hge' : 4 ^ k ≤ a / 4 := by
        rw [Nat.le_div_iff_mul_le (by decide), ← pow_succ]
        exact hge
      have hlt' : a / 4 < 4 ^ (k + 1) := by
        rw [Nat.div_lt_iff_lt_mul (by decide), ← pow_succ]
        exact hlt
      have hpow := Nat.pow_pos (n := k) (show 0 < 4 by decide)
      rw [itrLoop, if_pos hpos, hquot, ← Nat.add_assoc turns (k + 1) 1, ih hge' hlt' _ (by omega) (by omega)]
      congr 1
      omega

/-! ## Convergence -/

/-- The iterations are enough, from a start that is too great by almost the whole argument. -/
theorem excess_iterate_le : ∀ k < 16, 8 ≤ k → (excess (2 ^ (k + 8)))^[k] (4 ^ k + 65536) ≤ 3 := by decide

/-- The root of an argument with so many digits in base 4. -/
theorem le_sqrt (hge : 4 ^ k ≤ a) : 2 ^ (k + 8) ≤ (a * 65536).sqrt := by
  rw [Nat.le_sqrt]
  calc 2 ^ (k + 8) * 2 ^ (k + 8) = 4 ^ k * 65536 := by
        rw [show 4 = 2 ^ 2 from rfl, ← pow_mul, ← pow_add]
        ring
    _ ≤ a * 65536 := Nat.mul_le_mul_right _ hge

/-- What the iterations leave for an argument that is greater than one. -/
theorem sqrtFrom_eq (hgt : 65536 < a) (hlt : a < 2 ^ 31) :
    ∃ l : Nat, sqrtFrom 16 a = some (l : Int) ∧ (a * 65536).sqrt ≤ l ∧ l ≤ (a * 65536).sqrt + 3 := by
  obtain ⟨k, hge, hless⟩ : ∃ k, 4 ^ k ≤ a ∧ a < 4 ^ (k + 1) :=
    ⟨Nat.log 4 a, Nat.pow_log_le_self 4 (by omega), Nat.lt_pow_succ_log_self (by decide) a⟩
  have hk8 : 8 ≤ k := by
    by_contra hk
    have hpow : 4 ^ (k + 1) ≤ 4 ^ 8 := Nat.pow_le_pow_right (by decide) (by omega)
    omega
  have hk16 : k < 16 := by
    by_contra hk
    have hpow : 4 ^ 16 ≤ 4 ^ k := Nat.pow_le_pow_right (by decide) (by omega)
    omega
  have hroot := le_sqrt hge
  have hpos : 0 < 2 ^ (k + 8) := Nat.pow_pos (by decide)
  -- the first iteration comes down to a quarter of the argument
  have hq : a * 65536 / (a / 2 + 1) ≤ 131072 := by
    rw [Nat.div_le_iff_le_mul_add_pred (by omega)]
    omega
  have hfirst : newton (a * 65536) (a / 2 + 1) ≤ (a * 65536).sqrt + (4 ^ k + 65536) := by
    unfold newton
    omega
  have hge' := sqrt_le_newton (m := a * 65536) (l := a / 2 + 1) (by omega)
  have hle' : newton (a * 65536) (a / 2 + 1) ≤ 2 ^ 30 := by
    unfold newton
    omega
  obtain ⟨hlow, hhigh⟩ := newton_iterate hpos hroot k hge' hfirst
  refine ⟨_, ?_, hlow, Nat.le_trans hhigh (Nat.add_le_add_left (excess_iterate_le k hk16 hk8) _)⟩
  have hstart : addInt32 ((a : Int) / 2) 1 = some ((a / 2 + 1 : Nat) : Int) := by
    have hcast : (a : Int) / 2 = ((a / 2 : Nat) : Int) := by omega
    rw [hcast]
    exact addInt32_natCast (y := 1) (by omega)
  have hitr : itrLoop 33 a 0 = some (0 + (k + 1)) := by
    have hturns : 33 = (31 - k) + (k + 1) + 1 := by omega
    rw [hturns]
    exact itrLoop_eq hge hless _ 0
  have hone : (a : Int) > fixOne 16 := by
    rw [show fixOne 16 = 65536 from rfl]
    omega
  unfold sqrtFrom
  rw [hstart, Option.bind_eq_bind, Option.bind_some, if_pos hone, hitr, Option.bind_eq_bind, Option.bind_some,
    Nat.zero_add, sqrtLoop_step (by omega) (by omega) (by omega), sqrtLoop_eq hlt (by omega) hge' hle']

/-! ## The result -/

/-- A root that is at most three units above the integer root is accurate. -/
theorem accurate_of_sqrt_le (hge : m.sqrt ≤ l) (hle : l ≤ m.sqrt + 3) (hpos : 4 ≤ m.sqrt) :
    ((l : Int) - 4) ^ 2 < m ∧ (m : Int) < (l + 4) ^ 2 := by
  have hlow : m.sqrt * m.sqrt ≤ m := Nat.sqrt_le m
  have hhigh : m < (m.sqrt + 1) * (m.sqrt + 1) := Nat.lt_succ_sqrt m
  zify at *
  constructor <;> nlinarith

variable {A r S : Nat}

/-- The inverse `r` of a root `l` of the inverse `A` is not much too great. -/
theorem inverse_le (ha : a < 65536) (hA : 2 ^ 32 < (A + 1) * a) (hS : A * 65536 < (S + 1) * (S + 1))
    (hSl : S ≤ l) (hl : 65536 ≤ l) (hr : (r + 4) * l ≤ 2 ^ 32) : r * r < a * 65536 := by
  by_contra hge
  -- the product of `r` and `l + 1` is below 2^32 by at least `a`
  obtain ⟨t, ht, hat, hpos⟩ : ∃ t, r * (l + 1) + t = 2 ^ 32 ∧ a ≤ t ∧ t ≤ 2 ^ 32 := by
    have hrl : r * 65536 + 4 * l ≤ 2 ^ 32 := by nlinarith
    have hexpand : r * (l + 1) + 4 * l ≤ 2 ^ 32 + r := by linarith
    exact ⟨2 ^ 32 - r * (l + 1), by omega, by omega, by omega⟩
  have hless : r * (l + 1) * (r * (l + 1)) + 2 ^ 32 * a ≤ 2 ^ 32 * 2 ^ 32 := by
    calc r * (l + 1) * (r * (l + 1)) + 2 ^ 32 * a
        ≤ r * (l + 1) * (r * (l + 1)) + (r * (l + 1) + t) * t := by
          rw [ht]
          exact Nat.add_le_add_left (Nat.mul_le_mul_left _ hat) _
      _ = r * (l + 1) * (r * (l + 1) + t) + t * t := by ring
      _ ≤ r * (l + 1) * 2 ^ 32 + t * 2 ^ 32 := by
          rw [ht]
          exact Nat.add_le_add_left (Nat.mul_le_mul_left _ hpos) _
      _ = 2 ^ 32 * 2 ^ 32 := by rw [← Nat.add_mul, ht]
  -- but its square is that of a number above the root of `A`, times `a`
  have hroot : A * 65536 + 1 ≤ (l + 1) * (l + 1) :=
    Nat.le_trans hS (Nat.mul_le_mul (Nat.succ_le_succ hSl) (Nat.succ_le_succ hSl))
  have hsquare : 2 ^ 32 * (A * a) ≤ r * (l + 1) * (r * (l + 1)) := by
    calc 2 ^ 32 * (A * a) = a * 65536 * (A * 65536) := by ring
      _ ≤ r * r * ((l + 1) * (l + 1)) := Nat.mul_le_mul (Nat.le_of_not_lt hge) (Nat.le_of_succ_le hroot)
      _ = r * (l + 1) * (r * (l + 1)) := by ring
  linarith

/-- The inverse `r` of a root `l` of the inverse `A` is not much too small. -/
theorem le_inverse (ha : a < 65536) (hA : A * a ≤ 2 ^ 32) (hS : S * S ≤ A * 65536) (hpos : 65536 ≤ S)
    (hl : l ≤ S + 3) (hr : 2 ^ 32 < (r + 1) * l) : a * 65536 < (r + 4) * (r + 4) := by
  by_contra hge
  have hless : r + 4 < 65536 := by nlinarith
  have hprod : (r + 4) * S ≤ 2 ^ 32 := by
    refine Nat.mul_self_le_mul_self_iff.mp ?_
    calc (r + 4) * S * ((r + 4) * S) = (r + 4) * (r + 4) * (S * S) := by ring
      _ ≤ a * 65536 * (A * 65536) := Nat.mul_le_mul (Nat.le_of_not_lt hge) hS
      _ = A * a * 2 ^ 32 := by ring
      _ ≤ 2 ^ 32 * 2 ^ 32 := Nat.mul_le_mul_right _ hA
  nlinarith

theorem sqrt_accurate_of_gt (hgt : 65536 < a) (hlt : a < 2 ^ 31) :
    ∃ r : Nat, sqrtFrom 16 a = some (r : Int) ∧ ((r : Int) - 4) ^ 2 < (a : Int) * 65536
      ∧ (a : Int) * 65536 < (r + 4) ^ 2 := by
  obtain ⟨l, hcall, hge, hle⟩ := sqrtFrom_eq hgt hlt
  have hpos : 4 ≤ (a * 65536).sqrt := by
    rw [Nat.le_sqrt]
    omega
  have haccurate := accurate_of_sqrt_le hge hle hpos
  rw [Nat.cast_mul] at haccurate
  exact ⟨l, hcall, haccurate⟩

/-- The root of an argument that is inverted. -/
theorem sqrt_accurate_of_inverse (hgt : 6 < a) (hlt : a < 65536) :
    ∃ r : Nat, ((do
        let x ← fixDiv64 16 65536 a
        let l ← sqrtFrom 16 x
        fixDiv64 16 65536 l) : Option Int) = some (r : Int) ∧ ((r : Int) - 4) ^ 2 < (a : Int) * 65536
      ∧ (a : Int) * 65536 < (r + 4) ^ 2 := by
  have hinverse : 65536 < 65536 * 65536 / a ∧ 65536 * 65536 / a < 2 ^ 31 := by
    constructor
    · exact (Nat.le_div_iff_mul_le (by omega)).mpr (by omega)
    · exact (Nat.div_lt_iff_lt_mul (by omega)).mpr (by omega)
  have hA : 65536 * 65536 / a * a ≤ 2 ^ 32 := Nat.div_mul_le_self _ _
  have hA' : 2 ^ 32 < (65536 * 65536 / a + 1) * a := (Nat.div_lt_iff_lt_mul (by omega)).mp (Nat.lt_succ_self _)
  have hdiv : fixDiv64 16 65536 a = some ((65536 * 65536 / a : Nat) : Int) :=
    fixDiv64_natCast (x := 65536) (by omega) hinverse.2
  generalize 65536 * 65536 / a = A at *
  obtain ⟨l, hcall, hge, hle⟩ := sqrtFrom_eq hinverse.1 hinverse.2
  have hroot : 65536 ≤ (A * 65536).sqrt := by
    rw [Nat.le_sqrt]
    omega
  have hl : 0 < l := by omega
  have hlast : fixDiv64 16 65536 l = some ((65536 * 65536 / l : Nat) : Int) := by
    refine fixDiv64_natCast (x := 65536) hl ?_
    rw [Nat.div_lt_iff_lt_mul hl]
    omega
  have hr : 65536 * 65536 / l * l ≤ 2 ^ 32 := Nat.div_mul_le_self _ _
  have hr' : 2 ^ 32 < (65536 * 65536 / l + 1) * l := (Nat.div_lt_iff_lt_mul hl).mp (Nat.lt_succ_self _)
  refine ⟨65536 * 65536 / l, ?_, ?_, ?_⟩
  · rw [hdiv, Option.bind_eq_bind, Option.bind_some, hcall, Option.bind_some, hlast]
  · generalize 65536 * 65536 / l = r at *
    by_cases hsmall : r < 4
    · nlinarith
    · obtain ⟨q, rfl⟩ : ∃ q, r = q + 4 := ⟨r - 4, by omega⟩
      have hupper := inverse_le hlt hA' (Nat.lt_succ_sqrt _) hge (by omega) hr
      push_cast
      zify at hupper
      linarith
  · generalize 65536 * 65536 / l = r at *
    have hlower := le_inverse hlt hA (Nat.sqrt_le _) hroot hle hr'
    zify at hlower
    linarith

/-- The root of an argument that has next to no bits. -/
theorem sqrt_accurate_of_lt (hpos : 0 < a) (hlt : a < 7) :
    ∃ r : Nat, sqrtFrom 16 a = some (r : Int) ∧ ((r : Int) - 4) ^ 2 < (a : Int) * 65536
      ∧ (a : Int) * 65536 < (r + 4) ^ 2 := by
  interval_cases a
  · exact ⟨256, by decide, by decide, by decide⟩
  · exact ⟨362, by decide, by decide, by decide⟩
  · exact ⟨443, by decide, by decide, by decide⟩
  · exact ⟨512, by decide, by decide, by decide⟩
  · exact ⟨572, by decide, by decide, by decide⟩
  · exact ⟨627, by decide, by decide, by decide⟩

/-- `fix_sqrt` divides by nothing that is 0, overflows nowhere, and is accurate. -/
theorem fixSqrt_accurate (a : Int32) (ha : 0 < a.toInt) :
    ∃ r, fixSqrt 16 a.toInt = some r ∧ (r - 4) ^ 2 < a.toInt * 65536 ∧ a.toInt * 65536 < (r + 4) ^ 2 := by
  have hlt := Int32.toInt_lt a
  obtain ⟨n, hn⟩ : ∃ n : Nat, a.toInt = n := ⟨a.toInt.toNat, by omega⟩
  have hone : fixOne 16 = 65536 := rfl
  rw [hn] at ha hlt ⊢
  unfold fixSqrt
  rw [if_neg (by omega), hone]
  by_cases heq : n = 65536
  · exact ⟨n, if_pos (Or.inr (by omega)), by rw [heq]; decide, by rw [heq]; decide⟩
  · rw [if_neg (by omega)]
    by_cases hinv : n < 65536 ∧ 6 < n
    · rw [if_pos (by omega)]
      obtain ⟨r, hcall, haccurate⟩ := sqrt_accurate_of_inverse hinv.2 hinv.1
      exact ⟨r, hcall, haccurate⟩
    · rw [if_neg (by omega)]
      by_cases hgt : 65536 < n
      · obtain ⟨r, hcall, haccurate⟩ := sqrt_accurate_of_gt hgt (by omega)
        exact ⟨r, hcall, haccurate⟩
      · obtain ⟨r, hcall, haccurate⟩ := sqrt_accurate_of_lt (a := n) (by omega) (by omega)
        exact ⟨r, hcall, haccurate⟩

/-- One half, which is inverted. -/
theorem fixSqrt_accurate_half :
    ∃ r, fixSqrt 16 32768 = some r ∧ (r - 4) ^ 2 < 32768 * 65536 ∧ 32768 * 65536 < (r + 4) ^ 2 :=
  fixSqrt_accurate 32768 (by decide)

end Fixed

end UcxArinc
