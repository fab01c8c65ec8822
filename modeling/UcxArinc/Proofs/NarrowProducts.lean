import Mathlib.Data.Int.ModEq
import Mathlib.Data.Rat.Cast.Order
import Mathlib.Tactic.Linarith
import Mathlib.Tactic.Ring
import UcxArinc.Implementation.Fixed

set_option autoImplicit false

/-! # Narrow and wide products

With 32 bits `fix_mul` adds up four partial products, of which the one of the two fractions may not fit. Otherwise
it agrees with the wide version, up to the rounding of negative numbers and to the least number of all. -/

namespace UcxArinc

namespace Fixed

variable {ibits : Nat} {x y z P : Int}

/-! ## Words -/

theorem int32_range (x : Int) : -2 ^ 31 ≤ int32 x ∧ int32 x < 2 ^ 31 :=
  ⟨Int.le_bmod (by decide), Int.bmod_lt (by decide)⟩

theorem int32_modEq (x : Int) : int32 x ≡ x [ZMOD 2 ^ 32] := by
  have hmod : (x.bmod (2 ^ 32)) % ((2 ^ 32 : Nat) : Int) = x % ((2 ^ 32 : Nat) : Int) := Int.bmod_emod
  exact hmod

theorem int32_congr (h : x ≡ y [ZMOD 2 ^ 32]) : int32 x = int32 y := by
  unfold int32
  rw [← Int.emod_bmod x, ← Int.emod_bmod y]
  exact congrArg (fun r => Int.bmod r (2 ^ 32)) h

theorem int32_of_range (h : -2 ^ 31 ≤ x) (h' : x < 2 ^ 31) : int32 x = x :=
  Int.bmod_eq_of_le (by omega) (by omega)

theorem uint32_modEq (x : Int) : uint32 x ≡ x [ZMOD 2 ^ 32] := Int.mod_modEq x _

theorem uint32_of_range (h : 0 ≤ x) (h' : x < 2 ^ 32) : uint32 x = x := Int.emod_eq_of_lt h h'

/-- A word whose sign has been taken off: the magnitude, or the least number, which has none. -/
theorem stripSign_cases (hx : -2 ^ 31 ≤ x) (hx' : x < 2 ^ 31) :
    (x ≠ -2 ^ 31 ∧ stripSign x = |x|) ∨ (x = -2 ^ 31 ∧ stripSign x = -2 ^ 31) := by
  by_cases hmin : x = -2 ^ 31
  · exact .inr ⟨hmin, by rw [hmin]; rfl⟩
  · refine .inl ⟨hmin, ?_⟩
    unfold stripSign
    by_cases hneg : x < 0
    · rw [if_pos hneg, int32_of_range (by omega) (by omega), abs_of_neg hneg]
    · rw [if_neg hneg, abs_of_nonneg (by omega)]

/-! ## The four partial products -/

theorem two_pow_split (h : ibits ≤ 32) : (2 : Int) ^ 32 = 2 ^ fixFbits ibits * 2 ^ ibits := by
  rw [← pow_add, fixFbits, Nat.sub_add_cancel h]

/-- Of the product of the fractions the part above 32 bits is lost. -/
theorem uint32_mul_ediv (h : ibits ≤ 32) (m : Int) :
    uint32 m / 2 ^ fixFbits ibits = m / 2 ^ fixFbits ibits - m / 2 ^ 32 * 2 ^ ibits := by
  have hpow : (2 : Int) ^ fixFbits ibits ≠ 0 := pow_ne_zero _ (by decide)
  have hmod : uint32 m = m + 2 ^ fixFbits ibits * -(m / 2 ^ 32 * 2 ^ ibits) := by
    have hdiv := Int.emod_def m (2 ^ 32)
    rw [uint32, hdiv]
    nth_rewrite 1 [two_pow_split h]
    ring
  rw [hmod, Int.add_mul_ediv_left _ _ hpow]
  ring

/-- A product by parts. -/
theorem mul_ediv_parts (hP : P ≠ 0) (x y : Int) :
    x * y / P = y % P * (x % P) / P + y % P * (x / P) + y / P * (x % P) + y / P * (x / P) * P := by
  have hprod : x * y
      = y % P * (x % P) + P * (y % P * (x / P) + y / P * (x % P) + y / P * (x / P) * P) := by
    nth_rewrite 1 [← Int.mul_ediv_add_emod x P, ← Int.mul_ediv_add_emod y P]
    ring
  rw [hprod, Int.add_mul_ediv_left _ _ hP]
  ring

/-- What is lost of the product of two numbers. -/
def lost (ibits : Nat) (x y : Int) : Int :=
  x % 2 ^ fixFbits ibits * (y % 2 ^ fixFbits ibits) / 2 ^ 32 * 2 ^ ibits

/-- A fraction is a word. -/
theorem uint32_fraction (h : ibits ≤ 32) (x : Int) : uint32 (x % 2 ^ fixFbits ibits) = x % 2 ^ fixFbits ibits := by
  have hpow : (0 : Int) < 2 ^ fixFbits ibits := pow_pos (by decide) _
  have hle : (2 : Int) ^ fixFbits ibits ≤ 2 ^ 32 := by
    rw [two_pow_split h]
    exact le_mul_of_one_le_right hpow.le (one_le_pow₀ (by decide))
  exact uint32_of_range (Int.emod_nonneg _ hpow.ne') (lt_of_lt_of_le (Int.emod_lt_of_pos _ hpow) hle)

/-- What `fix_mul` makes of the numbers without their signs. -/
theorem fixMul32_eq (h : ibits ≤ 32) (x y : Int) :
    fixMul32 ibits x y = putSign x y
      (int32 (stripSign x * stripSign y / 2 ^ fixFbits ibits - lost ibits (stripSign x) (stripSign y))) := by
  have hpow : (2 : Int) ^ fixFbits ibits ≠ 0 := pow_ne_zero _ (by decide)
  unfold fixMul32 lost
  dsimp only
  rw [uint32_fraction h, uint32_fraction h, uint32_mul_ediv h, mul_ediv_parts hpow (stripSign x) (stripSign y)]
  generalize (2 : Int) ^ fixFbits ibits = P
  generalize stripSign x = x'
  generalize stripSign y = y'
  refine congrArg _ (int32_congr ((uint32_modEq _).trans ?_))
  have ha := uint32_modEq (x' / P)
  have hc := uint32_modEq (y' / P)
  have hsum := (((Int.ModEq.refl (y' % P * (x' % P) / P - y' % P * (x' % P) / 2 ^ 32 * 2 ^ ibits)).add
    (ha.mul_left (y' % P))).add (hc.mul_right (x' % P))).add ((hc.mul ha).mul_right P)
  refine hsum.trans (congrArg (fun r => r % 2 ^ 32) ?_)
  rw [mul_comm (x' % P) (y' % P)]
  ring

theorem emod_le_self (hx : 0 ≤ x) (hP : 0 < P) : x % P ≤ x := by
  have hquot := mul_nonneg hP.le (Int.ediv_nonneg hx hP.le)
  rw [Int.emod_def]
  omega

/-- Nothing is lost, or four units at least, but never more than there is. -/
theorem lost_spec (h : 2 ≤ ibits) (h' : ibits ≤ 32) (hx : 0 ≤ x) (hy : 0 ≤ y) :
    0 ≤ lost ibits x y ∧ lost ibits x y ≤ x * y / 2 ^ fixFbits ibits
      ∧ (x % 2 ^ fixFbits ibits * (y % 2 ^ fixFbits ibits) < 2 ^ 32 ↔ lost ibits x y < 4)
      ∧ (lost ibits x y < 4 → lost ibits x y = 0) := by
  have hsplit := two_pow_split h'
  have hpow : (0 : Int) < 2 ^ fixFbits ibits := pow_pos (by decide) _
  have hfour : (4 : Int) ≤ 2 ^ ibits := by
    calc (4 : Int) = 2 ^ 2 := rfl
      _ ≤ 2 ^ ibits := pow_le_pow_right₀ (by decide) h
  unfold lost
  generalize (2 : Int) ^ fixFbits ibits = P at *
  generalize (2 : Int) ^ ibits = C at *
  have hb := Int.emod_nonneg x hpow.ne'
  have hd := Int.emod_nonneg y hpow.ne'
  have hprod : x % P * (y % P) ≤ x * y :=
    mul_le_mul (emod_le_self hx hpow) (emod_le_self hy hpow) hd hx
  have hnonneg : 0 ≤ x % P * (y % P) := mul_nonneg hb hd
  generalize x % P * (y % P) = f at *
  have hk : 0 ≤ f / 2 ^ 32 := Int.ediv_nonneg hnonneg (by decide)
  have hkf : f / 2 ^ 32 * 2 ^ 32 ≤ f := Int.ediv_mul_le f (by decide)
  refine ⟨mul_nonneg hk (by omega), ?_, ?_, ?_⟩
  · refine Int.le_ediv_of_mul_le hpow (le_trans ?_ hprod)
    calc f / 2 ^ 32 * C * P = f / 2 ^ 32 * 2 ^ 32 := by rw [hsplit]; ring
      _ ≤ f := hkf
  · constructor
    · intro hlt
      rw [Int.ediv_eq_zero_of_lt hnonneg hlt, zero_mul]
      decide
    · intro hlt
      by_contra hge
      have hone : 1 ≤ f / 2 ^ 32 := Int.le_ediv_of_mul_le (by decide) (by omega)
      nlinarith
  · intro hlt
    by_contra hne
    have hone : 1 ≤ f / 2 ^ 32 := by
      rcases hk.lt_or_eq with hlt' | heq
      · exact hlt'
      · exact absurd (by rw [← heq, zero_mul]) hne
    nlinarith

/-! ## Signs -/

theorem putSign_same (h : x < 0 ↔ y < 0) (res : Int) : putSign x y res = res := by
  unfold putSign
  rw [if_neg (by simpa using h)]

theorem putSign_other (h : ¬ (x < 0 ↔ y < 0)) (res : Int) : putSign x y (int32 res) = int32 (-res) := by
  unfold putSign
  rw [if_pos (by simpa using h)]
  exact int32_congr (int32_modEq res).neg

theorem mul_same (h : x < 0 ↔ y < 0) : x * y = |x| * |y| := by
  by_cases hx : x < 0
  · rw [abs_of_neg hx, abs_of_neg (h.mp hx), neg_mul_neg]
  · rw [abs_of_nonneg (not_lt.mp hx), abs_of_nonneg (not_lt.mp fun hy => hx (h.mpr hy))]

theorem mul_other (h : ¬ (x < 0 ↔ y < 0)) : x * y = -(|x| * |y|) := by
  by_cases hx : x < 0
  · have hy : ¬ y < 0 := fun hy => h ⟨fun _ => hy, fun _ => hx⟩
    rw [abs_of_neg hx, abs_of_nonneg (not_lt.mp hy), neg_mul, neg_neg]
  · have hy : y < 0 := by
      by_contra hy
      exact h ⟨fun hx' => absurd hx' hx, fun hy' => absurd hy' hy⟩
    rw [abs_of_nonneg (not_lt.mp hx), abs_of_neg hy, mul_neg, neg_neg]

/-- Rounding down is one unit further from 0 for a negative number, at most. -/
theorem neg_ediv_bounds (hP : 0 < P) (x : Int) : -(x / P) - 1 ≤ -x / P ∧ -x / P ≤ -(x / P) := by
  have hlow : x / P * P ≤ x := Int.ediv_mul_le x hP.ne'
  have hhigh : x < (x / P + 1) * P := Int.lt_ediv_add_one_mul_self x hP
  constructor
  · exact Int.le_ediv_of_mul_le hP (by nlinarith)
  · exact Int.lt_add_one_iff.mp (Int.ediv_lt_of_lt_mul hP (by nlinarith))

/-! ## Multiplication -/

/-- A number of units that a `fixed_t` can hold. -/
def Representable (q : Rat) : Prop := -2 ^ 31 ≤ q ∧ q < 2 ^ 31

/-- The narrow product is at most one unit off the wide one, where there is room for the exact one. -/
def MulAgrees (ibits : Nat) (x y : Int) : Prop :=
  Representable ((x * y : Int) / 2 ^ fixFbits ibits) → |fixMul32 ibits x y - fixMul64 ibits x y| ≤ 1

/-- The product of the fractions fits in 32 bits, and neither number is the least one, which has no magnitude,
    unless the other is 0 or one. -/
def MulFits (ibits : Nat) (x y : Int) : Prop :=
  |x| % 2 ^ fixFbits ibits * (|y| % 2 ^ fixFbits ibits) < 2 ^ 32
    ∧ (x = -2 ^ 31 → y = 0 ∨ y = fixOne ibits) ∧ (y = -2 ^ 31 → x = 0 ∨ x = fixOne ibits)

theorem representable_iff {n : Int} (hP : 0 < P) :
    Representable ((n : Rat) / P) ↔ -2 ^ 31 * P ≤ n ∧ n < 2 ^ 31 * P := by
  have hP' : (0 : Rat) < P := Int.cast_pos.mpr hP
  unfold Representable
  rw [le_div_iff₀ hP', div_lt_iff₀ hP']
  exact_mod_cast Iff.rfl

/-- The exact product has room where the rounded one has. -/
theorem fixMul64_eq (hP : 0 < (2 : Int) ^ fixFbits ibits) (hlow : -2 ^ 31 * 2 ^ fixFbits ibits ≤ x * y)
    (hhigh : x * y < 2 ^ 31 * 2 ^ fixFbits ibits) : fixMul64 ibits x y = x * y / 2 ^ fixFbits ibits :=
  int32_of_range (Int.le_ediv_of_mul_le hP hlow) (Int.ediv_lt_of_lt_mul hP hhigh)

/-- Two numbers that have magnitudes. -/
theorem fixMul32_near_iff (h : 2 ≤ ibits) (h' : ibits ≤ 32) (hx : stripSign x = |x|) (hy : stripSign y = |y|)
    (hlow : -2 ^ 31 * 2 ^ fixFbits ibits ≤ x * y) (hhigh : x * y < 2 ^ 31 * 2 ^ fixFbits ibits) :
    |fixMul32 ibits x y - fixMul64 ibits x y| ≤ 1
      ↔ |x| % 2 ^ fixFbits ibits * (|y| % 2 ^ fixFbits ibits) < 2 ^ 32 := by
  have hP : (0 : Int) < 2 ^ fixFbits ibits := pow_pos (by decide) _
  obtain ⟨hlost, hlost', hiff, hnone⟩ := lost_spec h h' (abs_nonneg x) (abs_nonneg y)
  rw [hiff, fixMul32_eq h', hx, hy, fixMul64_eq hP hlow hhigh]
  by_cases hsign : x < 0 ↔ y < 0
  · have hquot : x * y / 2 ^ fixFbits ibits < 2 ^ 31 := Int.ediv_lt_of_lt_mul hP hhigh
    rw [mul_same hsign] at hquot ⊢
    rw [putSign_same hsign, int32_of_range (by omega) (by omega), abs_le]
    omega
  · have hquot : -2 ^ 31 ≤ x * y / 2 ^ fixFbits ibits := Int.le_ediv_of_mul_le hP hlow
    have hbounds := neg_ediv_bounds hP (|x| * |y|)
    rw [mul_other hsign] at hquot ⊢
    have hfits : |x| * |y| / 2 ^ fixFbits ibits ≤ 2 ^ 31 := by omega
    rw [putSign_other hsign, int32_of_range (by omega) (by omega), abs_le]
    omega

theorem fixMul32_comm (h : ibits ≤ 32) (x y : Int) : fixMul32 ibits x y = fixMul32 ibits y x := by
  have hsign : ∀ res, putSign x y res = putSign y x res := fun res => if_congr ne_comm rfl rfl
  have hlost : ∀ x y, lost ibits x y = lost ibits y x := fun x y => by
    unfold lost
    rw [mul_comm (x % _)]
  rw [fixMul32_eq h, fixMul32_eq h, hsign, mul_comm, hlost]

theorem fixMul64_comm (x y : Int) : fixMul64 ibits x y = fixMul64 ibits y x := by
  unfold fixMul64
  rw [mul_comm]

/-- What half the range is in units of one. -/
theorem two_pow_half (h : 2 ≤ ibits) (h' : ibits ≤ 32) : (2 : Int) ^ 31 = 2 ^ fixFbits ibits * 2 ^ (ibits - 1) := by
  have hsum : fixFbits ibits + (ibits - 1) = 31 := by
    unfold fixFbits
    omega
  rw [← pow_add, hsum]

/-- The least number has no fraction, so that nothing is lost, but it keeps its sign. -/
theorem fixMul32_min (h : 2 ≤ ibits) (h' : ibits ≤ 32) (hy : stripSign y = |y|) :
    fixMul32 ibits (-2 ^ 31) y = int32 (2 ^ (ibits - 1) * y) := by
  have hhalf := two_pow_half h h'
  have hP : (2 : Int) ^ fixFbits ibits ≠ 0 := pow_ne_zero _ (by decide)
  have hlost : lost ibits (-2 ^ 31) |y| = 0 := by
    have hmod : (-2 ^ 31 : Int) % 2 ^ fixFbits ibits = 0 :=
      Int.emod_eq_zero_of_dvd (Dvd.intro (-2 ^ (ibits - 1)) (by rw [hhalf]; ring))
    unfold lost
    rw [hmod, zero_mul, Int.zero_ediv, zero_mul]
  have hquot : (-2 ^ 31 : Int) * |y| / 2 ^ fixFbits ibits = -(2 ^ (ibits - 1) * |y|) := by
    rw [hhalf]
    refine Int.ediv_eq_of_eq_mul_right hP ?_
    ring
  have hstrip : stripSign (-2 ^ 31) = -2 ^ 31 := rfl
  have hmin : (-2 ^ 31 : Int) < 0 := by decide
  rw [fixMul32_eq h', hstrip, hy, hlost, hquot, sub_zero]
  by_cases hneg : y < 0
  · rw [putSign_same (iff_of_true hmin hneg), abs_of_neg hneg, mul_neg, neg_neg]
  · rw [putSign_other (fun hsign => hneg (hsign.mp hmin)), abs_of_nonneg (not_lt.mp hneg), neg_neg]

/-- The least number and another. -/
theorem fixMul32_min_near_iff (h : 2 ≤ ibits) (h' : ibits ≤ 32) (hy : stripSign y = |y|)
    (hlow : -2 ^ 31 * 2 ^ fixFbits ibits ≤ -2 ^ 31 * y) (hhigh : -2 ^ 31 * y < 2 ^ 31 * 2 ^ fixFbits ibits) :
    |fixMul32 ibits (-2 ^ 31) y - fixMul64 ibits (-2 ^ 31) y| ≤ 1 ↔ y = 0 ∨ y = fixOne ibits := by
  have hhalf := two_pow_half h h'
  have hP : (0 : Int) < 2 ^ fixFbits ibits := pow_pos (by decide) _
  have hD : (0 : Int) < 2 ^ (ibits - 1) := pow_pos (by decide) _
  have hquot : (-2 ^ 31 : Int) * y / 2 ^ fixFbits ibits = -(2 ^ (ibits - 1) * y) := by
    rw [hhalf]
    refine Int.ediv_eq_of_eq_mul_right hP.ne' ?_
    ring
  rw [fixMul32_min h h' hy, fixMul64_eq hP hlow hhigh, hquot, fixOne]
  have hzero : 2 ^ (ibits - 1) * y = 0 ↔ y = 0 := by
    rw [mul_eq_zero, or_iff_right hD.ne']
  have hone : 2 ^ (ibits - 1) * y = 2 ^ 31 ↔ y = 2 ^ fixFbits ibits := by
    rw [hhalf, mul_comm, mul_left_inj' hD.ne']
  have hle : 2 ^ (ibits - 1) * y ≤ 2 ^ 31 := by
    rw [hhalf, mul_comm]
    exact mul_le_mul_of_nonneg_right (by omega) hD.le
  have hlt : -2 ^ 31 < 2 ^ (ibits - 1) * y := by
    have hprod := mul_lt_mul_of_pos_left (show -2 ^ fixFbits ibits < y by omega) hD
    rw [hhalf]
    linarith
  rw [← hzero, ← hone]
  generalize 2 ^ (ibits - 1) * y = z at *
  by_cases hlast : z = 2 ^ 31
  · have hwrap : int32 (2 ^ 31) = -2 ^ 31 := rfl
    rw [hlast, hwrap, sub_self, abs_zero]
    decide
  · rw [int32_of_range (by omega) (by omega), abs_le]
    omega

/-- The magnitude of the least number has no fraction. -/
theorem abs_min_emod (h : 2 ≤ ibits) (h' : ibits ≤ 32) : |(-2 ^ 31 : Int)| % 2 ^ fixFbits ibits = 0 := by
  refine Int.emod_eq_zero_of_dvd ?_
  rw [abs_neg, abs_of_nonneg (by decide), two_pow_half h h']
  exact Dvd.intro _ rfl

/-- The square of the least number is out of range. -/
theorem min_mul_min (h : 2 ≤ ibits) (h' : ibits ≤ 32) :
    ¬ (-2 ^ 31 * -2 ^ 31 : Int) < 2 ^ 31 * 2 ^ fixFbits ibits := by
  have hle : (2 : Int) ^ fixFbits ibits ≤ 2 ^ 31 := by
    rw [two_pow_half h h']
    exact le_mul_of_one_le_right (pow_pos (by decide) _).le (one_le_pow₀ (by decide))
  omega

/-- When the narrow product agrees with the wide one. -/
theorem mulAgrees_iff (h : 2 ≤ ibits) (h' : ibits ≤ 32) (x y : Int32) :
    MulAgrees ibits x.toInt y.toInt ↔
      (Representable ((x.toInt * y.toInt : Int) / 2 ^ fixFbits ibits) → MulFits ibits x.toInt y.toInt) := by
  have hx := stripSign_cases (Int32.le_toInt x) (Int32.toInt_lt x)
  have hy := stripSign_cases (Int32.le_toInt y) (Int32.toInt_lt y)
  generalize x.toInt = x at *
  generalize y.toInt = y at *
  refine imp_congr_right fun hrepr => ?_
  have hP : (0 : Int) < 2 ^ fixFbits ibits := pow_pos (by decide) _
  have hbounds := representable_iff (n := x * y) hP
  push_cast at hbounds hrepr
  obtain ⟨hlow, hhigh⟩ := hbounds.mp hrepr
  unfold MulFits
  rcases hx with ⟨hxmin, hx⟩ | ⟨hxmin, -⟩
  · rcases hy with ⟨hymin, hy⟩ | ⟨hymin, -⟩
    · rw [fixMul32_near_iff h h' hx hy hlow hhigh]
      exact ⟨fun hfits => ⟨hfits, fun hmin => absurd hmin hxmin, fun hmin => absurd hmin hymin⟩, fun hfits => hfits.1⟩
    · rw [hymin, mul_comm x] at hlow hhigh
      rw [hymin, fixMul32_comm h', fixMul64_comm, fixMul32_min_near_iff h h' hx hlow hhigh, abs_min_emod h h',
        mul_zero]
      exact ⟨fun hone => ⟨by decide, fun hmin => absurd hmin hxmin, fun _ => hone⟩, fun hfits => hfits.2.2 rfl⟩
  · rcases hy with ⟨hymin, hy⟩ | ⟨hymin, -⟩
    · rw [hxmin] at hlow hhigh
      rw [hxmin, fixMul32_min_near_iff h h' hy hlow hhigh, abs_min_emod h h', zero_mul]
      exact ⟨fun hone => ⟨by decide, fun _ => hone, fun hmin => absurd hmin hymin⟩, fun hfits => hfits.2.1 rfl⟩
    · rw [hxmin, hymin] at hhigh
      exact absurd hhigh (min_mul_min h h')

end Fixed

end UcxArinc
