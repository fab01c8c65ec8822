import Mathlib.Algebra.Group.Nat.Defs
import Mathlib.Algebra.Group.Int.Defs
import Mathlib.Data.Nat.Init
import Mathlib.Data.Int.Init

set_option autoImplicit false

/-! # Fixed point

`lib/fixed.h` and `lib/fixed.c`. A `fixed_t` is the `int32_t` it is stored in, and `>>` of a negative number
rounds down. -/

namespace UcxArinc

namespace Fixed

/-- Conversion to `int32_t`. -/
def int32 (x : Int) : Int := x.bmod (2 ^ 32)

/-- Conversion to `uint32_t`. -/
def uint32 (x : Int) : Int := x % 2 ^ 32

/-- `FIX_FBITS` -/
def fixFbits (ibits : Nat) : Nat := 32 - ibits

/-- `FIX_ONE` -/
def fixOne (ibits : Nat) : Int := 2 ^ fixFbits ibits

/-! ## `FIX_MULDIV_WIDTH` 64 -/

/-- `fix_mul` -/
def fixMul64 (ibits : Nat) (x y : Int) : Int := int32 (x * y / 2 ^ fixFbits ibits)

/-- `fix_div`. A division by zero has no outcome. -/
def fixDiv64 (ibits : Nat) (x y : Int) : Option Int :=
  if y = 0 then none else some (int32 ((x * 2 ^ fixFbits ibits).tdiv y))

/-! ## `FIX_MULDIV_WIDTH` 32 -/

/-- `if (x < 0) x = -x;` -/
def stripSign (x : Int) : Int := if x < 0 then int32 (-x) else x

/-- `neg ? -res : res`, where `x` and `y` are the arguments. -/
def putSign (x y res : Int) : Int := if (x < 0) ≠ (y < 0) then int32 (-res) else res

/-- `fix_mul` -/
def fixMul32 (ibits : Nat) (x y : Int) : Int :=
  let fbits := fixFbits ibits
  let a := uint32 (stripSign x / 2 ^ fbits)
  let b := uint32 (stripSign x % 2 ^ fbits)
  let c := uint32 (stripSign y / 2 ^ fbits)
  let d := uint32 (stripSign y % 2 ^ fbits)
  let res := int32 (uint32 (uint32 (d * b) / 2 ^ fbits + d * a + c * b + c * a * 2 ^ fbits))
  putSign x y res

/-- A shift of an `uint32_t` to the left. By a negative number or by 32 and more it has no outcome. -/
def shiftLeft (x n : Int) : Option Int := if 0 ≤ n ∧ n < 32 then some (uint32 (x * 2 ^ n.toNat)) else none

/-- A shift of an `uint32_t` to the right, likewise. -/
def shiftRight (x n : Int) : Option Int := if 0 ≤ n ∧ n < 32 then some (x / 2 ^ n.toNat) else none

/-- `fix_div` -/
def fixDiv32 (ibits : Nat) (x y : Int) : Option Int :=
  let divisor := uint32 (stripSign y)
  if divisor = 0 then none
  else
    let shifted := if ibits ≤ 16 then shiftLeft (0x80000000 / divisor) (33 - ibits * 2)
      else shiftRight (0x80000000 / divisor) (ibits * 2 - 33)
    shifted.map fun reciprocal => putSign x y (fixMul32 ibits (stripSign x) (int32 reciprocal))

/-! ## `fix_sqrt` -/

/-- A sum of `int32_t`. An overflow has no outcome. -/
def addInt32 (x y : Int) : Option Int := if -2 ^ 31 ≤ x + y ∧ x + y < 2 ^ 31 then some (x + y) else none

/-- `while (s > 0) { s >>= 2; itr++; }` -/
def itrLoop : Nat → Int → Nat → Option Nat
  | 0, _, _ => none
  | turns + 1, s, itr => if s > 0 then itrLoop turns (s / 4) (itr + 1) else some itr

/-- `l = (l + fix_div(a, l)) >> 1`, again and again. -/
def sqrtLoop (ibits : Nat) (a : Int) : Nat → Int → Option Int
  | 0, l => some l
  | itr + 1, l => do
    let quotient ← fixDiv64 ibits a l
    let sum ← addInt32 l quotient
    sqrtLoop ibits a itr (sum / 2)

/-- The iterations: how many, and from where. -/
def sqrtFrom (ibits : Nat) (a : Int) : Option Int := do
  let l ← addInt32 (a / 2) 1
  if a > fixOne ibits then do
    let itr ← itrLoop 33 a 0
    sqrtLoop ibits a itr l
  else sqrtLoop ibits a (fixFbits ibits) l

/-- `fix_sqrt`, where `FIX_MULDIV_WIDTH` is 64. -/
def fixSqrt (ibits : Nat) (a : Int) : Option Int :=
  if a < 0 then some (-1)
  else if a = 0 ∨ a = fixOne ibits then some a
  else if a < fixOne ibits ∧ a > 6 then do
    let a ← fixDiv64 ibits (fixOne ibits) a
    let l ← sqrtFrom ibits a
    fixDiv64 ibits (fixOne ibits) l
  else sqrtFrom ibits a

end Fixed

end UcxArinc
