import UcxArinc.Proofs.NarrowProducts

set_option autoImplicit false

/-! # Narrow and wide quotients

With 32 bits `fix_div` multiplies by a reciprocal that has been rounded down and made a word. It agrees with the
wide version if the reciprocal fits, nothing is lost in the product, and the two roundings together stay small. -/

namespace UcxArinc

namespace Fixed

variable {ibits : Nat} {x y z r P : Int}

/-! ## The reciprocal -/

/-- The reciprocal `fix_div` multiplies by, before it is a word. -/
def reciprocal (ibits : Nat) (y : Int) : Int :=
  if ibits ≤ 16 then 2 ^ 31 / y * 2 ^ (33 - ibits * 2) else 2 ^ 31 / y / 2 ^ (ibits * 2 - 33)

theorem reciprocal_nonneg (hy : 0 ≤ y) : 0 ≤ reciprocal ibits y := by
  have hquot : (0 : Int) ≤ 2 ^ 31 / y := Int.ediv_nonneg (by decide) hy
  unfold reciprocal
  by_cases hsmall : ibits ≤ 16
  · rw [if_pos hsmall]
    exact mul_nonneg hquot (pow_pos (by decide) _).le
  · rw [if_neg hsmall]
    exact Int.ediv_nonneg hquot (pow_pos (by decide) _).le

/-- It is not greater than the exact one. -/
theorem reciprocal_mul_le (h : ibits ≤ 32) (hy : 0 < y) :
    reciprocal ibits y * y ≤ 2 ^ fixFbits ibits * 2 ^ fixFbits ibits := by
  have hquot : 2 ^ 31 / y * y ≤ 2 ^ 31 := Int.ediv_mul_le _ hy.ne'
  unfold reciprocal
  by_cases hsmall : ibits ≤ 16
  · have hpow : (2 : Int) ^ fixFbits ibits * 2 ^ fixFbits ibits = 2 ^ 31 * 2 ^ (33 - ibits * 2) := by
      rw [← pow_add, ← pow_add]
      unfold fixFbits
      congr 1
      omega
    rw [if_pos hsmall, hpow, mul_right_comm]
    exact mul_le_mul_of_nonneg_right hquot (pow_pos (by decide) _).le
  · have hpow : (2 : Int) ^ 31 = 2 ^ fixFbits ibits * 2 ^ fixFbits ibits * 2 ^ (ibits * 2 - 33) := by
      rw [← pow_add, ← pow_add]
      unfold fixFbits
      congr 1
      omega
    have hshift : (0 : Int) < 2 ^ (ibits * 2 - 33) := pow_pos (by decide) _
    have hdiv : 2 ^ 31 / y / 2 ^ (ibits * 2 - 33) * 2 ^ (ibits * 2 - 33) ≤ 2 ^ 31 / y := Int.ediv_mul_le _ hshift.ne'
    rw [if_neg hsmall]
    refine le_of_mul_le_mul_right ?_ hshift
    rw [← hpow, mul_right_comm]
    exact le_trans (mul_le_mul_of_nonneg_right hdiv hy.le) hquot

/-- If it does not fit in a word it is even. -/
theorem reciprocal_even (hy : 0 < y) (hgt : 2 ^ 31 < reciprocal ibits y) : ∃ r, reciprocal ibits y = 2 * r := by
  unfold reciprocal at hgt ⊢
  by_cases hsmall : ibits ≤ 16
  · obtain ⟨k, hk⟩ : ∃ k, 33 - ibits * 2 = k + 1 := ⟨32 - ibits * 2, by omega⟩
    rw [if_pos hsmall, hk]
    exact ⟨2 ^ 31 / y * 2 ^ k, by rw [pow_succ]; ring⟩
  · rw [if_neg hsmall] at hgt
    have hquot : 2 ^ 31 / y ≤ 2 ^ 31 := Int.ediv_le_self _ (by decide)
    have hnonneg : 0 ≤ 2 ^ 31 / y := Int.ediv_nonneg (by decide) hy.le
    have hshift : 2 ^ 31 / y / 2 ^ (ibits * 2 - 33) ≤ 2 ^ 31 / y := Int.ediv_le_self _ hnonneg
    omega

theorem uint32_stripSign (hy : -2 ^ 31 ≤ y) (hy' : y < 2 ^ 31) : uint32 (stripSign y) = |y| := by
  rcases stripSign_cases hy hy' with ⟨hne, heq⟩ | ⟨rfl, heq⟩
  · rw [heq]
    exact uint32_of_range (abs_nonneg y) (by rw [abs_lt]; omega)
  · rw [heq]
    rfl

/-- `fix_div` divides by nothing that is 0, and shifts by less than 32 and not by a negative number. -/
theorem fixDiv32_eq (h : 2 ≤ ibits) (h' : ibits ≤ 30) (x : Int) (hy : -2 ^ 31 ≤ y) (hy' : y < 2 ^ 31) (hne : y ≠ 0) :
    fixDiv32 ibits x y
      = some (putSign x y (fixMul32 ibits (stripSign x) (int32 (reciprocal ibits |y|)))) := by
  unfold fixDiv32 reciprocal
  dsimp only
  rw [uint32_stripSign hy hy', if_neg (abs_ne_zero.mpr hne)]
  by_cases hsmall : ibits ≤ 16
  · have hamount : (33 - (ibits : Int) * 2).toNat = 33 - ibits * 2 := by omega
    rw [if_pos hsmall, if_pos hsmall, shiftLeft, if_pos (by omega), hamount, Option.map_some]
    have hword : int32 (uint32 (0x80000000 / |y| * 2 ^ (33 - ibits * 2)))
        = int32 (2 ^ 31 / |y| * 2 ^ (33 - ibits * 2)) :=
      int32_congr (uint32_modEq _)
    rw [hword]
  · have hamount : ((ibits : Int) * 2 - 33).toNat = ibits * 2 - 33 := by omega
    rw [if_neg hsmall, if_neg hsmall, shiftRight, if_pos (by omega), hamount, Option.map_some]
    rfl

/-! ## The product with the reciprocal -/

/-- A word that is not negative. -/
theorem stripSign_of_nonneg (hr : 0 ≤ r) : stripSign r = r := if_neg (not_lt.mpr hr)

/-- What is made of a magnitude and another word. -/
theorem fixMul32_of_nonneg (h : 2 ≤ ibits) (h' : ibits ≤ 32) (hx : -2 ^ 31 ≤ x) (hx' : x < 2 ^ 31) (hr : 0 ≤ r) :
    fixMul32 ibits (stripSign x) r = int32 (|x| * r / 2 ^ fixFbits ibits - lost ibits |x| r) := by
  have hstrip := stripSign_of_nonneg hr
  rcases stripSign_cases hx hx' with ⟨hne, heq⟩ | ⟨rfl, heq⟩
  · rw [heq, fixMul32_eq h', stripSign_of_nonneg (abs_nonneg x), hstrip,
      putSign_same (iff_of_false (not_lt.mpr (abs_nonneg x)) (not_lt.mpr hr))]
  · have hhalf := two_pow_half h h'
    have hP : (2 : Int) ^ fixFbits ibits ≠ 0 := pow_ne_zero _ (by decide)
    have hquot : |(-2 ^ 31 : Int)| * r / 2 ^ fixFbits ibits = 2 ^ (ibits - 1) * r := by
      rw [abs_neg, abs_of_nonneg (by decide), hhalf, mul_assoc]
      exact Int.mul_ediv_cancel_left _ hP
    have hlost : lost ibits |(-2 ^ 31 : Int)| r = 0 := by
      unfold lost
      rw [abs_min_emod h h', zero_mul, Int.zero_ediv, zero_mul]
    rw [heq, fixMul32_min h h' (hstrip.trans (abs_of_nonneg hr).symm), hquot, hlost, sub_zero]

/-- A reciprocal that has become the least number counts as what it was. -/
theorem fixMul32_of_min (h : 2 ≤ ibits) (h' : ibits ≤ 32) (x : Int) :
    fixMul32 ibits |x| (-2 ^ 31) = int32 (|x| * 2 ^ 31 / 2 ^ fixFbits ibits - lost ibits |x| (2 ^ 31)) := by
  have hhalf := two_pow_half h h'
  have hP : (2 : Int) ^ fixFbits ibits ≠ 0 := pow_ne_zero _ (by decide)
  have hquot : |x| * 2 ^ 31 / 2 ^ fixFbits ibits = 2 ^ (ibits - 1) * |x| := by
    rw [hhalf, mul_left_comm, mul_comm |x|]
    exact Int.mul_ediv_cancel_left _ hP
  have hlost : lost ibits |x| (2 ^ 31) = 0 := by
    have hmod := abs_min_emod h h'
    rw [abs_neg, abs_of_nonneg (by decide)] at hmod
    unfold lost
    rw [hmod, mul_zero, Int.zero_ediv, zero_mul]
  rw [fixMul32_comm h', fixMul32_min h h' ((stripSign_of_nonneg (abs_nonneg x)).trans (abs_abs x).symm), hquot, hlost,
    sub_zero]

/-- A reciprocal that has become another negative number. -/
theorem fixMul32_of_neg (h' : ibits ≤ 32) (x : Int) (hr : 0 < r) (hr' : r < 2 ^ 31) :
    fixMul32 ibits |x| (-r) = int32 (-(|x| * r / 2 ^ fixFbits ibits - lost ibits |x| r)) := by
  have hstrip : stripSign (-r) = r := by
    unfold stripSign
    rw [if_pos (by omega), neg_neg, int32_of_range (by omega) hr']
  rw [fixMul32_eq h', stripSign_of_nonneg (abs_nonneg x), hstrip, putSign_other]
  intro hsign
  exact absurd (hsign.mpr (by omega)) (not_lt.mpr (abs_nonneg x))

/-! ## The wide quotient -/

/-- A magnitude with the sign of a product. -/
def withSign (x y m : Int) : Int := if x < 0 ↔ y < 0 then m else -m

theorem tdiv_eq_withSign (hP : 0 < P) (x y : Int) : (x * P).tdiv y = withSign x y (|x| * P / |y|) := by
  have hmagnitude : (|x| * P).tdiv |y| = |x| * P / |y| := Int.tdiv_eq_ediv_of_nonneg (mul_nonneg (abs_nonneg x) hP.le)
  unfold withSign
  by_cases hx : x < 0
  · rw [abs_of_neg hx] at hmagnitude ⊢
    have hneg : x * P = -(-x * P) := by ring
    by_cases hy : y < 0
    · rw [abs_of_neg hy] at hmagnitude ⊢
      rw [if_pos (iff_of_true hx hy), ← hmagnitude, hneg, Int.neg_tdiv, Int.tdiv_neg]
    · rw [abs_of_nonneg (not_lt.mp hy)] at hmagnitude ⊢
      rw [if_neg (fun hsign => hy (hsign.mp hx)), ← hmagnitude, hneg, Int.neg_tdiv]
  · rw [abs_of_nonneg (not_lt.mp hx)] at hmagnitude ⊢
    by_cases hy : y < 0
    · rw [abs_of_neg hy] at hmagnitude ⊢
      rw [if_neg (fun hsign => hx (hsign.mpr hy)), ← hmagnitude, Int.tdiv_neg, neg_neg]
    · rw [abs_of_nonneg (not_lt.mp hy)] at hmagnitude ⊢
      rw [if_pos (iff_of_false hx hy), ← hmagnitude]

/-- What it says of the magnitudes that there is room for the exact quotient. -/
theorem quotient_bounds {n : Int} (hy : y ≠ 0) (hn : n = x * P) (hrepr : Representable (n / y)) :
    |x| * P ≤ 2 ^ 31 * |y| ∧ ((x < 0 ↔ y < 0) → |x| * P < 2 ^ 31 * |y|) := by
  rcases hy.lt_or_gt with hneg | hpos
  · have hquot : (n : Rat) / y = ((-n : Int) : Rat) / ((-y : Int) : Rat) := by
      rw [Int.cast_neg, Int.cast_neg, neg_div_neg_eq]
    rw [hquot, representable_iff (by omega)] at hrepr
    rw [abs_of_neg hneg]
    by_cases hx : x < 0
    · rw [abs_of_neg hx, neg_mul, ← hn]
      exact ⟨hrepr.2.le, fun _ => hrepr.2⟩
    · rw [abs_of_nonneg (not_lt.mp hx), ← hn]
      exact ⟨by omega, fun hsign => absurd (hsign.mpr hneg) hx⟩
  · rw [representable_iff hpos] at hrepr
    rw [abs_of_pos hpos]
    by_cases hx : x < 0
    · rw [abs_of_neg hx, neg_mul, ← hn]
      exact ⟨by omega, fun hsign => absurd (hsign.mp hx) (not_lt.mpr hpos.le)⟩
    · rw [abs_of_nonneg (not_lt.mp hx), ← hn]
      exact ⟨hrepr.2.le, fun _ => hrepr.2⟩

/-! ## How far the narrow quotient is off -/

variable {T Q : Int}

/-- A magnitude that fits. -/
theorem near_iff (hT : 0 ≤ T) (hTQ : T ≤ Q) (hQ : Q ≤ 2 ^ 31) (hsame : (x < 0 ↔ y < 0) → Q < 2 ^ 31) :
    |putSign x y (int32 T) - withSign x y Q| ≤ 1 ↔ Q - T ≤ 1 := by
  unfold withSign
  by_cases hsign : x < 0 ↔ y < 0
  · have hlt := hsame hsign
    rw [putSign_same hsign, if_pos hsign, int32_of_range (by omega) (by omega), abs_le]
    omega
  · rw [putSign_other hsign, if_neg hsign, int32_of_range (by omega) (by omega), abs_le]
    omega

/-- A word is another number by so many times 2^32. -/
theorem exists_int32_eq (x : Int) : ∃ j, int32 x = x + 2 ^ 32 * j := by
  obtain ⟨j, hj⟩ := (int32_modEq x).symm.dvd
  exact ⟨j, by omega⟩

/-- A magnitude that is off by more than a unit, but not by so much that it comes round. -/
theorem not_near (hlow : 2 ≤ Q - T) (hhigh : Q - T ≤ 2 ^ 32 - 2) :
    ¬ |putSign x y (int32 T) - withSign x y Q| ≤ 1 := by
  unfold withSign
  by_cases hsign : x < 0 ↔ y < 0
  · obtain ⟨j, hj⟩ := exists_int32_eq T
    rw [putSign_same hsign, if_pos hsign, hj, abs_le]
    omega
  · obtain ⟨j, hj⟩ := exists_int32_eq (-T)
    rw [putSign_other hsign, if_neg hsign, hj, abs_le]
    omega

/-! ## The two roundings -/

variable {X Y R : Int}

/-- The product with a reciprocal that is not greater than the exact one is not greater than the quotient. -/
theorem product_le_quotient (hX : 0 ≤ X) (hY : 0 < Y) (hP : 0 < P) (hRY : R * Y ≤ P * P) : X * R / P ≤ X * P / Y := by
  have hquot : X * R / P * P ≤ X * R := Int.ediv_mul_le _ hP.ne'
  refine Int.le_ediv_of_mul_le hY (le_of_mul_le_mul_right ?_ hP)
  calc X * R / P * Y * P = X * R / P * P * Y := by ring
    _ ≤ X * R * Y := mul_le_mul_of_nonneg_right hquot hY.le
    _ = X * (R * Y) := by ring
    _ ≤ X * (P * P) := mul_le_mul_of_nonneg_left hRY hX
    _ = X * P * P := by ring

/-- The digits that the reciprocal has, `D`, are too few where the remainder of `D * P` by the divisor, times the
    dividend, is more than `D` times the divisor and the remainder of the quotient. -/
theorem rounding_iff {D : Int} (hY : 0 < Y) (hD : 0 < D) (X : Int) :
    X * P / Y - X * (D * P / Y) / D ≤ 1 ↔ X * (D * P % Y) ≤ D * (Y + X * P % Y) := by
  have hquot : Y * (X * P / Y) + X * P % Y = X * P := Int.mul_ediv_add_emod _ _
  have hrecip : Y * (D * P / Y) + D * P % Y = D * P := Int.mul_ediv_add_emod _ _
  have hless : X * P / Y - X * (D * P / Y) / D ≤ 1 ↔ (X * P / Y - 1) * D ≤ X * (D * P / Y) := by
    rw [← Int.le_ediv_iff_mul_le hD]
    omega
  generalize X * P / Y = q at *
  generalize D * P / Y = g at *
  generalize X * P % Y = r at *
  generalize D * P % Y = e at *
  have hleft : Y * ((q - 1) * D) = D * (X * P) - D * (Y + r) := by
    rw [← hquot]
    ring
  have hright : Y * (X * g) = D * (X * P) - X * e := by
    calc Y * (X * g) = X * (Y * g + e) - X * e := by ring
      _ = D * (X * P) - X * e := by rw [hrecip]; ring
  rw [hless, ← mul_le_mul_iff_right₀ hY, hleft, hright]
  omega

/-! ## The reciprocal by its digits -/

/-- The digits that the reciprocal has. -/
def precision (ibits : Nat) : Int := 2 ^ min (ibits - 1) (fixFbits ibits)

theorem precision_pos (ibits : Nat) : 0 < precision ibits := pow_pos (by decide) _

/-- With 16 bits of integer and less the reciprocal is taken of `2 ^ 31`, and otherwise of `FIX_ONE` squared. -/
theorem reciprocal_eq (h : 2 ≤ ibits) (h' : ibits ≤ 30) (hy : 0 < y) :
    ∃ unit, 0 < unit ∧ (2 : Int) ^ fixFbits ibits = precision ibits * unit
      ∧ reciprocal ibits y = precision ibits * 2 ^ fixFbits ibits / y * unit := by
  unfold reciprocal precision
  by_cases hsmall : ibits ≤ 16
  · have hmin : min (ibits - 1) (fixFbits ibits) = ibits - 1 := by
      unfold fixFbits
      omega
    have hone : (2 : Int) ^ fixFbits ibits = 2 ^ (ibits - 1) * 2 ^ (33 - ibits * 2) := by
      rw [← pow_add]
      unfold fixFbits
      congr 1
      omega
    rw [if_pos hsmall, hmin, two_pow_half h (by omega), mul_comm (2 ^ fixFbits ibits)]
    exact ⟨2 ^ (33 - ibits * 2), pow_pos (by decide) _, hone, rfl⟩
  · have hmin : min (ibits - 1) (fixFbits ibits) = fixFbits ibits := by
      unfold fixFbits
      omega
    have hpow : (2 : Int) ^ 31 = 2 ^ fixFbits ibits * 2 ^ fixFbits ibits * 2 ^ (ibits * 2 - 33) := by
      rw [← pow_add, ← pow_add]
      unfold fixFbits
      congr 1
      omega
    have hshift : (0 : Int) < 2 ^ (ibits * 2 - 33) := pow_pos (by decide) _
    rw [if_neg hsmall, hmin, Int.ediv_ediv_of_nonneg hy.le, hpow, Int.mul_ediv_mul_of_pos_left _ _ hshift]
    exact ⟨1, one_pos, (mul_one _).symm, (mul_one _).symm⟩

/-- What is left of the product behind the digits of the reciprocal. -/
theorem product_eq (h : 2 ≤ ibits) (h' : ibits ≤ 30) (hY : 0 < Y) (X : Int) :
    X * reciprocal ibits Y / 2 ^ fixFbits ibits
      = X * (precision ibits * 2 ^ fixFbits ibits / Y) / precision ibits := by
  obtain ⟨unit, hunit, hone, heq⟩ := reciprocal_eq h h' hY
  rw [heq]
  generalize precision ibits * 2 ^ fixFbits ibits / Y = g
  rw [hone, ← mul_assoc, Int.mul_ediv_mul_of_pos_left _ _ hunit]

/-- Which reciprocals are no more than the least number. -/
theorem reciprocal_le_iff (h : 2 ≤ ibits) (h' : ibits ≤ 30) (hY : 0 < Y) :
    reciprocal ibits Y ≤ 2 ^ 31 ↔ 2 ^ 31 < (4 ^ (ibits - 1) + 1) * Y := by
  unfold reciprocal
  by_cases hsmall : ibits ≤ 16
  · have hpow : (2 : Int) ^ 31 = 4 ^ (ibits - 1) * 2 ^ (33 - ibits * 2) := by
      rw [show (4 : Int) = 2 ^ 2 by decide, ← pow_mul, ← pow_add]
      congr 1
      omega
    have hunit : (0 : Int) < 2 ^ (33 - ibits * 2) := pow_pos (by decide) _
    rw [if_pos hsmall]
    nth_rewrite 2 [hpow]
    rw [mul_le_mul_iff_left₀ hunit, ← Int.ediv_lt_iff_lt_mul hY]
    omega
  · have hquot : 2 ^ 31 / Y ≤ 2 ^ 31 := Int.ediv_le_self _ (by decide)
    have hnonneg : 0 ≤ 2 ^ 31 / Y := Int.ediv_nonneg (by decide) hY.le
    have hshift : 2 ^ 31 / Y / 2 ^ (ibits * 2 - 33) ≤ 2 ^ 31 / Y := Int.ediv_le_self _ hnonneg
    have hpow : (2 : Int) ^ 31 ≤ 4 ^ (ibits - 1) := by
      rw [show (4 : Int) = 2 ^ 2 by decide, ← pow_mul]
      exact pow_le_pow_right₀ (by decide) (by omega)
    rw [if_neg hsmall]
    refine iff_of_true (by omega) ?_
    calc (2 : Int) ^ 31 < 4 ^ (ibits - 1) + 1 := by omega
      _ ≤ (4 ^ (ibits - 1) + 1) * Y := le_mul_of_one_le_right (by omega) hY

/-- The fraction of a product by a fraction: the digits that a quotient of `m * P` has behind those of `P`. -/
theorem mul_ediv_emod {m : Int} (hm : 0 < m) (hY : 0 < Y) : m * P / Y % m = m * (P % Y) / Y := by
  have hsplit : m * P = m * (P % Y) + Y * (m * (P / Y)) := by
    nth_rewrite 1 [← Int.emod_add_mul_ediv P Y]
    ring
  have hlt : m * (P % Y) / Y < m :=
    Int.ediv_lt_of_lt_mul hY (mul_lt_mul_of_pos_left (Int.emod_lt_of_pos P hY) hm)
  have hnonneg : 0 ≤ m * (P % Y) / Y := Int.ediv_nonneg (mul_nonneg hm.le (Int.emod_nonneg P hY.ne')) hY.le
  rw [hsplit, Int.add_mul_ediv_left _ _ hY.ne', Int.add_mul_emod_self_left, Int.emod_eq_of_lt hnonneg hlt]

/-- Which fractions have a product that fits with that of the reciprocal. -/
theorem fraction_fits_iff (h : 2 ≤ ibits) (h' : ibits ≤ 30) (hY : 0 < Y) (X : Int) :
    X % 2 ^ fixFbits ibits * (reciprocal ibits Y % 2 ^ fixFbits ibits) < 2 ^ 32
      ↔ X % 2 ^ fixFbits ibits * (2 ^ (ibits - 1) * (2 ^ fixFbits ibits % Y) / Y) < 2 ^ (2 * ibits - 1) := by
  have hone : (0 : Int) < 2 ^ fixFbits ibits := pow_pos (by decide) _
  have hdigits : (0 : Int) < 2 ^ (ibits - 1) := pow_pos (by decide) _
  rw [← mul_ediv_emod hdigits hY]
  by_cases hsmall : ibits ≤ 16
  · have hunit : (0 : Int) < 2 ^ (33 - ibits * 2) := pow_pos (by decide) _
    have hparts : (2 : Int) ^ fixFbits ibits = 2 ^ (ibits - 1) * 2 ^ (33 - ibits * 2) := by
      rw [← pow_add]
      unfold fixFbits
      congr 1
      omega
    have hword : (2 : Int) ^ 32 = 2 ^ (2 * ibits - 1) * 2 ^ (33 - ibits * 2) := by
      rw [← pow_add]
      congr 1
      omega
    have hmod : reciprocal ibits Y % 2 ^ fixFbits ibits
        = 2 ^ (ibits - 1) * 2 ^ fixFbits ibits / Y % 2 ^ (ibits - 1) * 2 ^ (33 - ibits * 2) := by
      rw [reciprocal, if_pos hsmall, two_pow_half h (by omega), mul_comm (2 ^ fixFbits ibits)]
      nth_rewrite 2 [hparts]
      rw [mul_comm (2 ^ (ibits - 1) * 2 ^ fixFbits ibits / Y), mul_comm (2 ^ (ibits - 1) : Int) (2 ^ (33 - ibits * 2)),
        Int.mul_emod_mul_of_pos _ _ hunit, mul_comm]
    rw [hmod, hword, ← mul_assoc, mul_lt_mul_iff_left₀ hunit]
  · have hle : (2 : Int) ^ fixFbits ibits ≤ 2 ^ 15 := pow_le_pow_right₀ (by decide) (by unfold fixFbits; omega)
    have hX := Int.emod_nonneg X hone.ne'
    have hX' := Int.emod_lt_of_pos X hone
    have hR' := Int.emod_lt_of_pos (reciprocal ibits Y) hone
    have hg' := Int.emod_lt_of_pos (2 ^ (ibits - 1) * 2 ^ fixFbits ibits / Y) hdigits
    refine iff_of_true ?_ ?_
    · calc X % 2 ^ fixFbits ibits * (reciprocal ibits Y % 2 ^ fixFbits ibits)
          ≤ X % 2 ^ fixFbits ibits * 2 ^ 15 := mul_le_mul_of_nonneg_left (by omega) hX
        _ < 2 ^ 32 := by omega
    · calc X % 2 ^ fixFbits ibits * (2 ^ (ibits - 1) * 2 ^ fixFbits ibits / Y % 2 ^ (ibits - 1))
          ≤ X % 2 ^ fixFbits ibits * 2 ^ (ibits - 1) := mul_le_mul_of_nonneg_left hg'.le hX
        _ < 2 ^ fixFbits ibits * 2 ^ (ibits - 1) := mul_lt_mul_of_pos_right hX' hdigits
        _ = 2 ^ 31 := (two_pow_half h (by omega)).symm
        _ ≤ 2 ^ (2 * ibits - 1) := pow_le_pow_right₀ (by decide) (by omega)

/-! ## The narrow quotient -/

/-- A reciprocal that fits, or that has become the least number. -/
theorem fixMul32_of_fit (h : 2 ≤ ibits) (h' : ibits ≤ 32) (hx : -2 ^ 31 ≤ x) (hx' : x < 2 ^ 31) (hR : 0 ≤ R)
    (hfit : R ≤ 2 ^ 31) (hmin : R = 2 ^ 31 → x ≠ -2 ^ 31) :
    fixMul32 ibits (stripSign x) (int32 R) = int32 (|x| * R / 2 ^ fixFbits ibits - lost ibits |x| R) := by
  rcases hfit.lt_or_eq with hlt | heq
  · rw [int32_of_range (by omega) hlt]
    exact fixMul32_of_nonneg h h' hx hx' hR
  · have hmagnitude : stripSign x = |x| := by
      rcases stripSign_cases hx hx' with ⟨-, hstrip⟩ | ⟨hleast, -⟩
      · exact hstrip
      · exact absurd hleast (hmin heq)
    have hwrap : int32 (2 ^ 31) = -2 ^ 31 := rfl
    rw [heq, hwrap, hmagnitude]
    exact fixMul32_of_min h h' x

/-- A reciprocal that has lost a multiple of 2^32. -/
theorem far_of_wrap {j : Int} (h : 2 ≤ ibits) (h' : ibits ≤ 32) (hX : 0 < X) (hr : 0 ≤ r) (hj : 1 ≤ j)
    (hR : R = r + 2 ^ 32 * j) (hQ : X * R / 2 ^ fixFbits ibits ≤ Q) (hQ' : Q ≤ 2 ^ 31) :
    2 ≤ Q - (X * r / 2 ^ fixFbits ibits - lost ibits X r)
      ∧ Q - (X * r / 2 ^ fixFbits ibits - lost ibits X r) ≤ 2 ^ 32 - 2 := by
  obtain ⟨hlost, hlost', -, -⟩ := lost_spec h h' hX.le hr
  have hP : (2 : Int) ^ fixFbits ibits ≠ 0 := pow_ne_zero _ (by decide)
  have hprod : X * R / 2 ^ fixFbits ibits = X * r / 2 ^ fixFbits ibits + X * j * 2 ^ ibits := by
    have hsum : X * R = X * r + 2 ^ fixFbits ibits * (X * j * 2 ^ ibits) := by
      rw [hR, two_pow_split h']
      ring
    rw [hsum, Int.add_mul_ediv_left _ _ hP]
  have hfour : (4 : Int) ≤ 2 ^ ibits := by
    calc (4 : Int) = 2 ^ 2 := rfl
      _ ≤ 2 ^ ibits := pow_le_pow_right₀ (by decide) h
  have hwrapped : 4 ≤ X * j * 2 ^ ibits := by
    have hone : 1 ≤ X * j := one_le_mul_of_one_le_of_one_le hX hj
    calc (4 : Int) ≤ 2 ^ ibits := hfour
      _ ≤ X * j * 2 ^ ibits := le_mul_of_one_le_left (by omega) hone
  omega

/-- A reciprocal that does not fit leads far off. -/
theorem far_of_gt (h : 2 ≤ ibits) (h' : ibits ≤ 32) (hx : -2 ^ 31 ≤ x) (hx' : x < 2 ^ 31) (hX : 0 < |x|)
    (hXP : |x| ≤ 2 ^ fixFbits ibits) (hstrip : stripSign x = |x|) (hgt : 2 ^ 31 < R) (heven : ∃ k, R = 2 * k)
    (hQ : |x| * R / 2 ^ fixFbits ibits ≤ Q) (hQ2 : 2 ≤ Q) (hQ' : Q ≤ 2 ^ 31) :
    ∃ T, fixMul32 ibits (stripSign x) (int32 R) = int32 T ∧ 2 ≤ Q - T ∧ Q - T ≤ 2 ^ 32 - 2 := by
  obtain ⟨hlow, hhigh⟩ := int32_range R
  obtain ⟨j, hj⟩ := exists_int32_eq R
  by_cases hnonneg : 0 ≤ int32 R
  · exact ⟨_, fixMul32_of_nonneg h h' hx hx' hnonneg,
      far_of_wrap h h' hX hnonneg (show 1 ≤ -j by omega) (by omega) hQ hQ'⟩
  · rw [hstrip]
    by_cases hmin : int32 R = -2 ^ 31
    · rw [hmin]
      exact ⟨_, fixMul32_of_min h h' x,
        far_of_wrap h h' hX (show (0 : Int) ≤ 2 ^ 31 by decide) (show 1 ≤ -j - 1 by omega) (by omega) hQ hQ'⟩
    · -- the product has the wrong sign; as the reciprocal is even it does not come round
      obtain ⟨r, hr⟩ : ∃ r, int32 R = -r := ⟨-int32 R, by omega⟩
      obtain ⟨k, hk⟩ := heven
      have hP : (0 : Int) < 2 ^ fixFbits ibits := pow_pos (by decide) _
      have hrpos : 0 < r := by omega
      obtain ⟨hlost, hlost', -, -⟩ := lost_spec h h' hX.le hrpos.le
      have hle : |x| * r / 2 ^ fixFbits ibits ≤ r := by
        refine Int.ediv_le_of_le_mul hP ?_
        rw [mul_comm r]
        exact mul_le_mul_of_nonneg_right hXP hrpos.le
      rw [hr]
      exact ⟨_, fixMul32_of_neg h' x hrpos (by omega), by omega, by omega⟩

/-- The narrow quotient is at most one unit off the wide one, where there is room for the exact one. -/
def DivAgrees (ibits : Nat) (x y : Int) : Prop :=
  Representable ((x * 2 ^ fixFbits ibits : Int) / y) →
    ∃ n w, fixDiv32 ibits x y = some n ∧ fixDiv64 ibits x y = some w ∧ |n - w| ≤ 1

/-- The dividend is 0; or the divisor is not too small, the fraction of the dividend times the first digits of the
    fraction of `FIX_ONE` by the divisor fits, and so little is missing behind the digits that the reciprocal of the
    divisor has. -/
def DivFits (ibits : Nat) (x y : Int) : Prop :=
  x = 0 ∨
    (2 ^ 31 < (4 ^ (ibits - 1) + 1) * |y|
      ∧ |x| % 2 ^ fixFbits ibits * (2 ^ (ibits - 1) * (2 ^ fixFbits ibits % |y|) / |y|) < 2 ^ (2 * ibits - 1)
      ∧ |x| * (precision ibits * 2 ^ fixFbits ibits % |y|)
        ≤ precision ibits * (|y| + |x| * 2 ^ fixFbits ibits % |y|))

/-- A divisor of `FIX_ONE` has a reciprocal without a rest. -/
theorem divFits_of_dvd (hy : y ≠ 0) (hlarge : 2 ^ 31 < (4 ^ (ibits - 1) + 1) * |y|)
    (hdvd : |y| ∣ 2 ^ fixFbits ibits) (x : Int) : DivFits ibits x y := by
  have hone : 2 ^ fixFbits ibits % |y| = 0 := Int.emod_eq_zero_of_dvd hdvd
  have hdigits : precision ibits * 2 ^ fixFbits ibits % |y| = 0 := Int.emod_eq_zero_of_dvd (hdvd.mul_left _)
  have hrest : 0 ≤ |x| * 2 ^ fixFbits ibits % |y| := Int.emod_nonneg _ (abs_ne_zero.mpr hy)
  refine Or.inr ⟨hlarge, ?_, ?_⟩
  · rw [hone, mul_zero, Int.zero_ediv, mul_zero]
    exact pow_pos (by decide) _
  · rw [hdigits, mul_zero]
    exact mul_nonneg (precision_pos ibits).le (add_nonneg (abs_nonneg y) hrest)

/-- What the reciprocal lacks does not count for a dividend that is no larger than its digits reach. -/
theorem divFits_of_le (hy : y ≠ 0) (hlarge : 2 ^ 31 < (4 ^ (ibits - 1) + 1) * |y|)
    (hfraction : |x| % 2 ^ fixFbits ibits * (2 ^ (ibits - 1) * (2 ^ fixFbits ibits % |y|) / |y|) < 2 ^ (2 * ibits - 1))
    (hle : |x| ≤ precision ibits) : DivFits ibits x y := by
  have hY : 0 < |y| := abs_pos.mpr hy
  have hlack : precision ibits * 2 ^ fixFbits ibits % |y| < |y| := Int.emod_lt_of_pos _ hY
  have hrest : 0 ≤ |x| * 2 ^ fixFbits ibits % |y| := Int.emod_nonneg _ hY.ne'
  refine Or.inr ⟨hlarge, hfraction, ?_⟩
  calc |x| * (precision ibits * 2 ^ fixFbits ibits % |y|)
      ≤ precision ibits * (precision ibits * 2 ^ fixFbits ibits % |y|) :=
        mul_le_mul_of_nonneg_right hle (Int.emod_nonneg _ hY.ne')
    _ ≤ precision ibits * (|y| + |x| * 2 ^ fixFbits ibits % |y|) :=
        mul_le_mul_of_nonneg_left (by omega) (precision_pos ibits).le

/-- A reciprocal as great as the least number is that of a small divisor, and the dividend is less than one. -/
theorem lt_of_reciprocal_ge (h' : 2 ≤ ibits) (h'' : ibits ≤ 32) (hY : 0 < Y) (hP : P = 2 ^ fixFbits ibits)
    (hRY : R * Y ≤ P * P) (hge : 2 ^ 31 ≤ R) (hXY : X * P ≤ 2 ^ 31 * Y) : X ≤ P ∧ 2 * Y ≤ P ∧ P < 2 ^ 31 := by
  have hPpos : 0 < P := hP ▸ pow_pos (by decide) _
  have hPlt : P * 2 ≤ 2 ^ 31 := by
    have hhalf := two_pow_half h' h''
    have htwo : (2 : Int) ≤ 2 ^ (ibits - 1) := by
      calc (2 : Int) = 2 ^ 1 := rfl
        _ ≤ 2 ^ (ibits - 1) := pow_le_pow_right₀ (by decide) (by omega)
    rw [hhalf, ← hP]
    exact mul_le_mul_of_nonneg_left htwo hPpos.le
  have hYP : 2 ^ 31 * Y ≤ P * P := le_trans (mul_le_mul_of_nonneg_right hge hY.le) hRY
  refine ⟨le_of_mul_le_mul_right (le_trans hXY hYP) hPpos, ?_, by omega⟩
  refine le_of_mul_le_mul_right ?_ hPpos
  nlinarith

/-! ### A dividend that is 0 -/

theorem putSign_zero (x y : Int) : putSign x y 0 = 0 := by
  by_cases hsign : x < 0 ↔ y < 0
  · exact putSign_same hsign 0
  · exact putSign_other hsign 0

theorem fixMul32_zero (h : ibits ≤ 32) (r : Int) : fixMul32 ibits 0 r = 0 := by
  have hstrip : stripSign 0 = 0 := rfl
  have hlost : lost ibits 0 (stripSign r) = 0 := by
    unfold lost
    rw [Int.zero_emod, zero_mul, Int.zero_ediv, zero_mul]
  rw [fixMul32_eq h, hstrip, hlost, zero_mul, Int.zero_ediv]
  exact putSign_zero 0 r

theorem divAgrees_zero (h : 2 ≤ ibits) (h' : ibits ≤ 30) (hy : -2 ^ 31 ≤ y) (hy' : y < 2 ^ 31) (hne : y ≠ 0) :
    DivAgrees ibits 0 y := by
  intro _
  have hwide : fixDiv64 ibits 0 y = some 0 := by
    unfold fixDiv64
    rw [if_neg hne, zero_mul, Int.zero_tdiv]
    rfl
  have hstrip : stripSign 0 = 0 := rfl
  refine ⟨_, 0, fixDiv32_eq h h' 0 hy hy' hne, hwide, ?_⟩
  rw [hstrip, fixMul32_zero (by omega), putSign_zero]
  decide

/-! ### A dividend that is not 0 -/

/-- The wide quotient, where there is room for it. -/
theorem fixDiv64_eq (hne : y ≠ 0) (hQ : Q = |x| * 2 ^ fixFbits ibits / |y|) (hnonneg : 0 ≤ Q) (hle : Q ≤ 2 ^ 31)
    (hsame : (x < 0 ↔ y < 0) → Q < 2 ^ 31) : fixDiv64 ibits x y = some (withSign x y Q) := by
  unfold fixDiv64
  rw [if_neg hne, tdiv_eq_withSign (pow_pos (by decide) _), ← hQ]
  refine congrArg some ?_
  unfold withSign
  by_cases hsign : x < 0 ↔ y < 0
  · rw [if_pos hsign]
    exact int32_of_range (by omega) (hsame hsign)
  · rw [if_neg hsign]
    exact int32_of_range (by omega) (by omega)

/-- When the narrow quotient is near the wide one. -/
theorem putSign_near_iff (h : 2 ≤ ibits) (h' : ibits ≤ 30) (hx : -2 ^ 31 ≤ x) (hx' : x < 2 ^ 31) (hx0 : x ≠ 0)
    (hy0 : y ≠ 0) (hbound : |x| * 2 ^ fixFbits ibits ≤ 2 ^ 31 * |y|)
    (hQ : Q = |x| * 2 ^ fixFbits ibits / |y|) (hle : Q ≤ 2 ^ 31) (hsame : (x < 0 ↔ y < 0) → Q < 2 ^ 31) :
    |putSign x y (fixMul32 ibits (stripSign x) (int32 (reciprocal ibits |y|))) - withSign x y Q| ≤ 1
      ↔ DivFits ibits x y := by
  have hP : (0 : Int) < 2 ^ fixFbits ibits := pow_pos (by decide) _
  have hX : 0 < |x| := abs_pos.mpr hx0
  have hY : 0 < |y| := abs_pos.mpr hy0
  have hRY := reciprocal_mul_le (show ibits ≤ 32 by omega) hY
  have hR : 0 ≤ reciprocal ibits |y| := reciprocal_nonneg hY.le
  have hprod := product_le_quotient hX.le hY hP hRY
  have hsmall : 2 ^ 31 ≤ reciprocal ibits |y| → |x| ≤ 2 ^ fixFbits ibits ∧ 2 * |y| ≤ 2 ^ fixFbits ibits
      ∧ (2 : Int) ^ fixFbits ibits < 2 ^ 31 := fun hge =>
    lt_of_reciprocal_ge h (by omega) hY rfl hRY hge hbound
  rw [← hQ] at hprod
  unfold DivFits
  rw [or_iff_right hx0, ← reciprocal_le_iff h h' hY, ← fraction_fits_iff h h' hY,
    ← rounding_iff hY (precision_pos ibits), ← product_eq h h' hY, ← hQ]
  by_cases hfit : reciprocal ibits |y| ≤ 2 ^ 31
  · rw [and_iff_right hfit]
    obtain ⟨hlost, hlost', hiff, hnone⟩ := lost_spec h (by omega) hX.le hR
    have hmin : reciprocal ibits |y| = 2 ^ 31 → x ≠ -2 ^ 31 := fun heq hleast => by
      obtain ⟨hXP, -, hlt⟩ := hsmall heq.ge
      rw [hleast, abs_neg, abs_of_nonneg (by decide)] at hXP
      omega
    rw [fixMul32_of_fit h (by omega) hx hx' hR hfit hmin, near_iff (by omega) (by omega) hle hsame, hiff]
    omega
  · -- the reciprocal has been cut off
    obtain ⟨hXP, hYP, hlt⟩ := hsmall (by omega)
    have hstrip : stripSign x = |x| := by
      rcases stripSign_cases hx hx' with ⟨-, hstrip⟩ | ⟨hleast, -⟩
      · exact hstrip
      · rw [hleast, abs_neg, abs_of_nonneg (by decide)] at hXP
        omega
    have htwo : 2 ≤ Q := by
      rw [hQ]
      refine Int.le_ediv_of_mul_le hY (le_trans hYP ?_)
      exact le_mul_of_one_le_left hP.le hX
    obtain ⟨T, heq, hlow, hhigh⟩ :=
      far_of_gt h (by omega) hx hx' hX hXP hstrip (not_le.mp hfit) (reciprocal_even hY (not_le.mp hfit)) hprod
        htwo hle
    rw [heq]
    exact iff_of_false (not_near hlow hhigh) (fun hfits => hfit hfits.1)

/-- When the narrow quotient agrees with the wide one. -/
theorem divAgrees_iff (h : 2 ≤ ibits) (h' : ibits ≤ 30) (x y : Int32) (hne : y.toInt ≠ 0) :
    DivAgrees ibits x.toInt y.toInt ↔
      (Representable ((x.toInt * 2 ^ fixFbits ibits : Int) / y.toInt) → DivFits ibits x.toInt y.toInt) := by
  have hx := Int32.le_toInt x
  have hx' := Int32.toInt_lt x
  have hy := Int32.le_toInt y
  have hy' := Int32.toInt_lt y
  generalize x.toInt = x at *
  generalize y.toInt = y at *
  by_cases hx0 : x = 0
  · rw [hx0]
    exact iff_of_true (divAgrees_zero h h' hy hy' hne) (fun _ => .inl rfl)
  · refine imp_congr_right fun hrepr => ?_
    have hY : 0 < |y| := abs_pos.mpr hne
    obtain ⟨hle, hsame⟩ := quotient_bounds hne rfl hrepr
    obtain ⟨Q, hQ⟩ : ∃ Q, Q = |x| * 2 ^ fixFbits ibits / |y| := ⟨_, rfl⟩
    have hnonneg : 0 ≤ Q := hQ ▸ Int.ediv_nonneg (mul_nonneg (abs_nonneg x) (pow_pos (by decide) _).le) hY.le
    have hQle : Q ≤ 2 ^ 31 := hQ ▸ Int.ediv_le_of_le_mul hY hle
    have hQlt : (x < 0 ↔ y < 0) → Q < 2 ^ 31 := fun hsign => hQ ▸ Int.ediv_lt_of_lt_mul hY (hsame hsign)
    rw [fixDiv32_eq h h' x hy hy' hne, fixDiv64_eq hne hQ hnonneg hQle hQlt,
      ← putSign_near_iff h h' hx hx' hx0 hne hle hQ hQle hQlt]
    constructor
    · rintro ⟨n, w, hn, hw, hnear⟩
      rw [Option.some.injEq] at hn hw
      rwa [hn, hw]
    · exact fun hnear => ⟨_, _, rfl, rfl, hnear⟩

/-! ## Both -/

/-- The narrow versions agree with the wide ones, and a quotient by anything but 0 has an outcome. -/
def NarrowAgrees (ibits : Nat) (x y : Int) : Prop :=
  MulAgrees ibits x y ∧ (y ≠ 0 → (∃ n, fixDiv32 ibits x y = some n) ∧ DivAgrees ibits x y)

/-- They agree if the product of the fractions fits, and the quotient by its reciprocal. -/
theorem narrowAgrees_iff (h : 2 ≤ ibits) (h' : ibits ≤ 30) (x y : Int32) :
    NarrowAgrees ibits x.toInt y.toInt ↔
      (Representable ((x.toInt * y.toInt : Int) / 2 ^ fixFbits ibits) → MulFits ibits x.toInt y.toInt)
        ∧ (y.toInt ≠ 0 → Representable ((x.toInt * 2 ^ fixFbits ibits : Int) / y.toInt)
          → DivFits ibits x.toInt y.toInt) := by
  unfold NarrowAgrees
  rw [mulAgrees_iff h (by omega)]
  refine and_congr_right fun _ => forall_congr' fun hne => ?_
  rw [divAgrees_iff h h' x y hne]
  exact and_iff_right ⟨_, fixDiv32_eq h h' x.toInt (Int32.le_toInt y) (Int32.toInt_lt y) hne⟩

/-- The product and the quotient of 3 and 2, with 16 bits of integer. -/
theorem narrowAgrees_three_two : NarrowAgrees 16 (196608 : Int32).toInt (131072 : Int32).toInt :=
  (narrowAgrees_iff (by decide) (by decide) 196608 131072).mpr
    ⟨fun _ => ⟨by decide, by decide, by decide⟩, fun _ _ => .inr ⟨by decide, by decide, by decide⟩⟩

/-- The quotient of the least positive number and itself is 1, but the reciprocal is 2^32 and becomes 0. -/
theorem not_narrowAgrees :
    ¬ ∀ (ibits : Nat) (x y : Int32), 2 ≤ ibits → ibits ≤ 30 → NarrowAgrees ibits x.toInt y.toInt := by
  intro hall
  have hone : (1 : Int32).toInt = 1 := rfl
  have hagrees := ((hall 16 1 1 (by decide) (by decide)).2 (by decide)).2
  rw [hone] at hagrees
  have hrepr : Representable ((1 * 2 ^ fixFbits 16 : Int) / (1 : Int)) := by
    unfold Representable fixFbits
    norm_num
  obtain ⟨n, w, hn, hw, hnear⟩ := hagrees hrepr
  have hn' : fixDiv32 16 1 1 = some 0 := by decide
  have hw' : fixDiv64 16 1 1 = some 65536 := by decide
  rw [hn', Option.some.injEq] at hn
  rw [hw', Option.some.injEq] at hw
  rw [← hn, ← hw] at hnear
  exact absurd hnear (by decide)

end Fixed

end UcxArinc
