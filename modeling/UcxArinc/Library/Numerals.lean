import Mathlib.Data.Nat.Digits.Defs

set_option autoImplicit false

/-! # Digits, the lowest first

A loop that takes digits off a number until nothing is left finds at least one digit, the lowest first. Reversed
they are what `Nat.toDigits` writes, and read from the front they have the number for their value. -/

namespace Numerals

variable {base n d : Nat}

/-- The digits of a number, the lowest first; 0 has one. -/
def lowDigits (base n : Nat) : List Nat := if n = 0 then [0] else Nat.digits base n

/-- The value of digits that are read from the front, behind others that have a value. -/
def value (base : Nat) : Nat → List Nat → Nat := List.foldl fun v d => v * base + d

/-- One digit is taken off. -/
theorem lowDigits_eq (hbase : 1 < base) (n : Nat) :
    lowDigits base n = n % base :: if n / base = 0 then [] else lowDigits base (n / base) := by
  unfold lowDigits
  by_cases hn : n = 0
  · simp [hn]
  · rw [if_neg hn, Nat.digits_def' hbase (Nat.pos_of_ne_zero hn)]
    by_cases hdiv : n / base = 0
    · simp [hdiv]
    · simp [hdiv]

theorem lowDigits_ne_nil (hbase : 1 < base) (n : Nat) : lowDigits base n ≠ [] := by
  rw [lowDigits_eq hbase]
  exact List.cons_ne_nil _ _

theorem lt_of_mem_lowDigits (hbase : 1 < base) (hd : d ∈ lowDigits base n) : d < base := by
  unfold lowDigits at hd
  by_cases hn : n = 0
  · rw [if_pos hn, List.mem_singleton] at hd
    omega
  · rw [if_neg hn] at hd
    exact Nat.digits_lt_base hbase hd

/-- What `Nat.toDigits` writes. -/
theorem toDigits_eq (hbase : 1 < base) (n : Nat) :
    Nat.toDigits base n = (lowDigits base n).reverse.map Nat.digitChar := by
  induction n using Nat.strong_induction_on with
  | _ n ih =>
      rw [Nat.toDigits_eq_if hbase, lowDigits_eq hbase]
      by_cases hn : n < base
      · rw [if_pos hn, if_pos (Nat.div_eq_of_lt hn), Nat.mod_eq_of_lt hn]
        rfl
      · have hpos : n / base ≠ 0 := Nat.div_ne_zero_iff.mpr ⟨by omega, by omega⟩
        rw [if_neg hn, if_neg hpos, ih _ (Nat.div_lt_self (by omega) hbase), List.reverse_cons, List.map_append,
          List.map_singleton]

theorem value_lowDigits (base n : Nat) : value base 0 (lowDigits base n).reverse = n := by
  unfold value lowDigits
  by_cases hn : n = 0
  · simp [hn]
  · have hdigits := Nat.ofDigits_digits base n
    rw [Nat.ofDigits_eq_foldr] at hdigits
    rw [if_neg hn, List.foldl_reverse]
    simpa [Nat.add_comm, Nat.mul_comm] using hdigits

/-- There are at most so many digits if the number is less than a power. -/
theorem length_lowDigits_le_iff (hbase : 1 < base) (n : Nat) {k : Nat} (hk : 0 < k) :
    (lowDigits base n).length ≤ k ↔ n < base ^ k := by
  rw [← Nat.length_toDigits_le_iff hbase hk, toDigits_eq hbase, List.length_map, List.length_reverse]

end Numerals
