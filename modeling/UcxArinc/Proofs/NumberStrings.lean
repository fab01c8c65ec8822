import Mathlib.Tactic.Ring
import UcxArinc.Implementation.Libc
import UcxArinc.Library.Numerals

set_option autoImplicit false

/-! # Strings of numbers

`ucx_itoa` writes the digits the lowest first and then turns them round where they are. What it writes in
decimal `ucx_sprintf` writes too, and `ucx_atoi` reads back. -/

namespace UcxArinc

namespace Libc

open Cells Numerals

variable {mem : Nat → UInt8} {base n p q s turns : Nat} {f : UInt8 → UInt8} {ds : List Nat}

/-! ## What is to be written -/

/-- The characters of a string. -/
def chars (s : List Char) : List UInt8 := s.map fun c => UInt8.ofNat c.toNat

/-- A number in decimal. -/
def decimal (i : Int) : List UInt8 := chars (toString i).toList

/-- The characters a loop writes for digits. -/
def rawDigits (ds : List Nat) : List UInt8 := ds.map fun d => UInt8.ofNat (48 + d)

@[simp] theorem rawDigits_cons (d : Nat) (ds : List Nat) :
    rawDigits (d :: ds) = UInt8.ofNat (48 + d) :: rawDigits ds := rfl

@[simp] theorem rawDigits_nil : rawDigits [] = [] := rfl

@[simp] theorem rawDigits_append (ds ds' : List Nat) : rawDigits (ds ++ ds') = rawDigits ds ++ rawDigits ds' :=
  List.map_append

@[simp] theorem length_rawDigits (ds : List Nat) : (rawDigits ds).length = ds.length := List.length_map _

theorem chars_toDigits (hbase : 1 < base) (n : Nat) :
    chars (Nat.toDigits base n) = (lowDigits base n).reverse.map fun d => UInt8.ofNat d.digitChar.toNat := by
  rw [toDigits_eq hbase, chars, List.map_map]
  rfl

theorem decimal_natCast (n : Nat) : decimal n = rawDigits (lowDigits 10 n).reverse := by
  have hstring : (toString (n : Int)).toList = Nat.toDigits 10 n := Nat.toList_repr
  rw [decimal, hstring, chars_toDigits (by decide)]
  refine List.map_congr_left fun d hd => ?_
  rw [Nat.toNat_digitChar_of_lt_ten (lt_of_mem_lowDigits (by decide) (List.mem_reverse.mp hd))]

theorem decimal_neg (hn : 0 < n) : decimal (-n) = 45 :: rawDigits (lowDigits 10 n).reverse := by
  obtain ⟨k, rfl⟩ : ∃ k, n = k + 1 := ⟨n - 1, by omega⟩
  have hstring : (toString (-((k + 1 : Nat) : Int))).toList = '-' :: Nat.toDigits 10 (k + 1) := by
    have hrepr : toString (-((k + 1 : Nat) : Int)) = "-" ++ (k + 1).repr := rfl
    rw [hrepr, String.toList_append, Nat.toList_repr]
    rfl
  rw [← decimal_natCast, decimal, hstring, decimal]
  have hpositive : (toString ((k + 1 : Nat) : Int)).toList = Nat.toDigits 10 (k + 1) := Nat.toList_repr
  rw [hpositive]
  rfl

/-! ## The loops of `ucx_itoa` -/

theorem ofInt_natCast (n : Nat) : UInt8.ofInt n = UInt8.ofNat n := by
  have hmod : ((n : Int) % 2 ^ 8).toNat = n % 256 := by omega
  rw [UInt8.ofInt, hmod]
  exact UInt8.toNat_inj.mp (by simp)

/-- What a sign does to quotient and remainder. -/
theorem tmod_sign {sign : Int} (hsign : sign = 1 ∨ sign = -1) (n base : Nat) :
    (sign * n).tmod base = sign * (n % base : Nat) ∧ (sign * n).tdiv base = sign * (n / base : Nat) := by
  rcases hsign with rfl | rfl
  · rw [Int.one_mul, Int.one_mul, Int.one_mul]
    exact ⟨(Int.ofNat_tmod n base).symm, (Int.ofNat_tdiv n base).symm⟩
  · rw [Int.neg_one_mul, Int.neg_one_mul, Int.neg_one_mul, Int.neg_tmod, Int.neg_tdiv]
    exact ⟨congrArg _ (Int.ofNat_tmod n base).symm, congrArg _ (Int.ofNat_tdiv n base).symm⟩

/-- One digit. -/
theorem digitLoop_step {digit : Int → Int} {sign : Int} (hsign : sign = 1 ∨ sign = -1)
    (hdigit : ∀ r : Nat, digit (sign * r) = 48 + r) (n base turns q : Nat) (mem : Nat → UInt8) :
    digitLoop digit base (turns + 1) (sign * n) q mem
      = if n / base ≠ 0 then
          digitLoop digit base turns (sign * (n / base : Nat)) (q + 1)
            (Function.update mem q (UInt8.ofNat (48 + n % base)))
        else some (q + 1, Function.update mem q (UInt8.ofNat (48 + n % base))) := by
  have hchar : UInt8.ofInt (digit ((sign * n).tmod base)) = UInt8.ofNat (48 + n % base) := by
    rw [(tmod_sign hsign n base).1, hdigit, ← ofInt_natCast]
    rfl
  have hzero : sign * ((n / base : Nat) : Int) ≠ 0 ↔ n / base ≠ 0 := by
    rcases hsign with rfl | rfl <;> omega
  rw [digitLoop, hchar, (tmod_sign hsign n base).2]
  simp only [hzero]

/-- The digits are written, the lowest first. -/
theorem digitLoop_eq (digit : Int → Int) {sign : Int} (hsign : sign = 1 ∨ sign = -1)
    (hdigit : ∀ r : Nat, digit (sign * r) = 48 + r) (hbase : 1 < base) (hn : n < base ^ (turns + 1)) (q : Nat)
    (mem : Nat → UInt8) :
    digitLoop digit base (turns + 1) (sign * n) q mem
      = some (q + (lowDigits base n).length, put mem q (rawDigits (lowDigits base n))) := by
  induction turns generalizing n q mem with
  | zero =>
      have hdiv : n / base = 0 := Nat.div_eq_of_lt (by simpa using hn)
      rw [digitLoop_step hsign hdigit, lowDigits_eq hbase]
      simp [hdiv, put_cons]
  | succ turns ih =>
      rw [digitLoop_step hsign hdigit, lowDigits_eq hbase]
      by_cases hdiv : n / base = 0
      · simp [hdiv, put_cons]
      · have hless : n / base < base ^ (turns + 1) := Nat.div_lt_of_lt_mul (by rwa [pow_succ'] at hn)
        rw [if_pos hdiv, if_neg hdiv, ih hless, List.length_cons, rawDigits_cons, put_cons, Nat.add_assoc,
          Nat.add_comm 1]

/-- The characters between two places are turned round. -/
theorem swapLoop_eq (f : UInt8 → UInt8) (hturns : q ≤ p + turns) (mem : Nat → UInt8) :
    swapLoop f (turns + 1) p q mem = some fun j => if p ≤ j ∧ j < q then f (mem (p + q - 1 - j)) else mem j := by
  induction turns generalizing p q mem with
  | zero =>
      rw [swapLoop, if_neg (by omega)]
      refine congrArg some (funext fun j => ?_)
      rw [if_neg (by omega)]
  | succ turns ih =>
      rw [swapLoop]
      by_cases hlt : p < q
      · rw [if_pos hlt]
        dsimp only
        rw [ih (by omega)]
        refine congrArg some (funext fun j => ?_)
        by_cases hinner : p + 1 ≤ j ∧ j < q - 1
        · rw [if_pos hinner, if_pos (by omega), Function.update_of_ne (by omega), Function.update_of_ne (by omega)]
          congr 2
          omega
        · rw [if_neg hinner]
          by_cases hlast : j = q - 1
          · have hfirst : p + q - 1 - j = p := by omega
            rw [hlast, Function.update_self, if_pos (by omega), ← hlast, hfirst]
          · rw [Function.update_of_ne hlast]
            by_cases hfirst : j = p
            · have hother : p + q - 1 - j = q - 1 := by omega
              rw [hother, hfirst, Function.update_self, if_pos (by omega)]
            · rw [Function.update_of_ne hfirst, if_neg (by omega)]
      · rw [if_neg hlt]
        refine congrArg some (funext fun j => ?_)
        rw [if_neg (by omega)]

/-- Digits written the lowest first, with a 0 behind them, are turned round. -/
theorem swapLoop_put (f : UInt8 → UInt8) (mem : Nat → UInt8) (p : Nat) (cs : List UInt8)
    (hturns : cs.length ≤ turns) :
    swapLoop f (turns + 1) p (p + cs.length) (Function.update (put mem p cs) (p + cs.length) 0)
      = some (put mem p (cs.reverse.map f ++ [0])) := by
  rw [swapLoop_eq f (by omega)]
  refine congrArg some (funext fun j => ?_)
  rw [put_append, put_cons, put_nil, List.length_map, List.length_reverse]
  by_cases hinner : p ≤ j ∧ j < p + cs.length
  · have hk : cs.length - 1 - (j - p) < cs.length := by omega
    have hplace : p + (p + cs.length) - 1 - j - p = cs.length - 1 - (j - p) := by omega
    rw [if_pos hinner, Function.update_of_ne (by omega), Function.update_of_ne (by omega), put, if_pos (by omega),
      hplace, put, if_pos hinner.1, List.getElem?_map, List.getElem?_reverse (by omega),
      List.getElem?_eq_getElem hk, Option.getD_some, Option.map_some, Option.getD_some]
  · rw [if_neg hinner]
    by_cases hend : j = p + cs.length
    · rw [hend, Function.update_self, Function.update_self]
    · rw [Function.update_of_ne hend, Function.update_of_ne hend]
      rcases Nat.lt_or_ge j p with hlt | hge
      · rw [put_of_lt hlt, put_of_lt hlt]
      · rw [put_of_ge (by omega), put_of_ge (by simp; omega)]

/-! ## `ucx_itoa` -/

/-- The number a signed 32-bit value is. -/
theorem toInt_cases (i : Int32) :
    (∃ n : Nat, n < 2 ^ 31 ∧ i.toInt = n) ∨ ∃ n : Nat, 0 < n ∧ n ≤ 2 ^ 31 ∧ i.toInt = -n := by
  have hlt := Int32.toInt_lt i
  have hge := Int32.le_toInt i
  rcases Int.lt_or_le i.toInt 0 with hneg | hpos
  · exact .inr ⟨(-i.toInt).toNat, by omega, by omega, by omega⟩
  · exact .inl ⟨i.toInt.toNat, by omega, by omega⟩

/-- Digits, the lowest first, and their turn. -/
theorem swapLoop_rawDigits (mem : Nat → UInt8) (p : Nat) (ds : List Nat) :
    swapLoop id (p + ds.length + 1) p (p + ds.length) (Function.update (put mem p (rawDigits ds)) (p + ds.length) 0)
      = some (put mem p (rawDigits ds.reverse ++ [0])) := by
  have hturns : (rawDigits ds).length ≤ p + ds.length := by simp
  have hturn := swapLoop_put id mem p (rawDigits ds) hturns
  rw [length_rawDigits, List.map_id, rawDigits, ← List.map_reverse] at hturn
  exact hturn

/-- In decimal `ucx_itoa` writes what it should. -/
theorem ucxItoa_ten (i : Int32) (s : Nat) (mem : Nat → UInt8) :
    ucxItoa i s 10 mem = some (put mem s (decimal i.toInt ++ [0])) := by
  have hsign : i ≥ 0 ↔ 0 ≤ i.toInt := Int32.le_iff_toInt_le
  rcases toInt_cases i with ⟨n, hn, hi⟩ | ⟨n, hpos, hn, hi⟩
  · have hturns : n < 10 ^ (32 + 1) := by omega
    have hdigits := digitLoop_eq (fun rem => 48 + rem) (.inl rfl) (fun r => by rw [Int.one_mul]) (by decide) hturns s mem
    rw [Int.one_mul, Nat.cast_ofNat] at hdigits
    rw [ucxItoa, if_neg (by decide), if_neg (by decide), if_pos (by rw [hsign, hi]; omega), hi, hdigits,
      decimal_natCast]
    exact swapLoop_rawDigits mem s (lowDigits 10 n)
  · have hturns : n < 10 ^ (32 + 1) := by omega
    have hdigits := digitLoop_eq (fun rem => 48 - rem) (.inr rfl) (fun r => by omega) (by decide) hturns (s + 1)
      (Function.update mem s 45)
    rw [Int.neg_one_mul, Nat.cast_ofNat] at hdigits
    rw [ucxItoa, if_neg (by decide), if_neg (by decide), if_neg (by rw [hsign, hi]; omega), hi]
    dsimp only
    rw [hdigits, decimal_neg hpos, List.cons_append, put_cons]
    exact swapLoop_rawDigits (Function.update mem s 45) (s + 1) (lowDigits 10 n)

/-! ## `ucx_sprintf` with `%d` -/

/-- What fits in an `int` fits in a `long`. -/
theorem LongWidth.wrap_eq (w : LongWidth) {x : Int} (hge : -2 ^ 31 ≤ x) (hlt : x < 2 ^ 31) : w.wrap x = x := by
  unfold LongWidth.wrap
  cases w with
  | ilp32 =>
      have hpow : 2 ^ LongWidth.ilp32.bits = 4294967296 := rfl
      rw [hpow]
      exact Int.bmod_eq_of_le (by omega) (by omega)
  | lp64 =>
      have hpow : 2 ^ LongWidth.lp64.bits = 18446744073709551616 := rfl
      rw [hpow]
      exact Int.bmod_eq_of_le (by omega) (by omega)

/-- The low 32 bits are kept. -/
theorem LongWidth.wrap_mod (w : LongWidth) (x : Int) : w.wrap x % 2 ^ 32 = x % 2 ^ 32 := by
  have hdvd : (2 ^ 32 : Int) ∣ ((2 ^ w.bits : Nat) : Int) := by
    cases w with
    | ilp32 => exact ⟨1, rfl⟩
    | lp64 => exact ⟨2 ^ 32, rfl⟩
  rw [LongWidth.wrap, ← Int.emod_emod_of_dvd (x.bmod _) hdvd, Int.bmod_emod, Int.emod_emod_of_dvd x hdvd]

theorem divide_eq (w : LongWidth) {num : Int} (hbase : 1 < base) (hn : num % 2 ^ 32 = n) :
    divide w num base = (n % base, ((n / base : Nat) : Int)) := by
  have hless : n / base < 2 ^ 31 := by
    have hhalf : n / base ≤ n / 2 := Nat.div_le_div_left hbase (by decide)
    omega
  have hu : (num % 2 ^ 32).toNat = n := by omega
  unfold divide
  dsimp only
  rw [hu]
  have hpos := Int.natCast_nonneg (n / base)
  exact Prod.ext rfl (w.wrap_eq (by omega) (by omega))

/-- The digits of a number that is not 0, the lowest first. -/
theorem tmpDigits_eq (w : LongWidth) {num : Int} (hbase : 1 < base) (hn : num % 2 ^ 32 = n)
    (hzero : num = 0 ↔ n = 0) (hturns : n < base ^ turns) (tmp : List UInt8) :
    tmpDigits w base (turns + 1) num tmp = some (tmp ++ (Nat.digits base n).map digits) := by
  induction turns generalizing n num tmp with
  | zero =>
      have hn0 : n = 0 := by simpa using hturns
      rw [tmpDigits, if_neg (not_not.mpr (hzero.mpr hn0)), hn0]
      simp
  | succ turns ih =>
      by_cases hnum : num = 0
      · rw [tmpDigits, if_neg (not_not.mpr hnum), hzero.mp hnum]
        simp
      · have hn0 : n ≠ 0 := fun h => hnum (hzero.mpr h)
        have hless : n / base < base ^ turns := Nat.div_lt_of_lt_mul (by rwa [pow_succ'] at hturns)
        have hle : n / base ≤ n := Nat.div_le_self n base
        have hpos := Int.natCast_nonneg (n / base)
        rw [tmpDigits, if_pos hnum, divide_eq w hbase hn]
        dsimp only
        rw [ih (n := n / base) (by omega) (by omega) hless,
          Nat.digits_def' hbase (Nat.pos_of_ne_zero hn0), List.map_cons, List.append_assoc, List.singleton_append]

/-- The digits of a number, the highest first, whether it is 0 or not. -/
theorem tmpNumber_eq (w : LongWidth) {num : Int} {n : Nat} (hn : num % 2 ^ 32 = n) (hzero : num = 0 ↔ n = 0)
    (hlt : n < 10 ^ 32) :
    tmpNumber w 10 num = some (rawDigits (lowDigits 10 n)) := by
  unfold tmpNumber
  by_cases hnum : num = 0
  · rw [if_pos hnum, hzero.mp hnum]
    rfl
  · rw [if_neg hnum, tmpDigits_eq w (by decide) hn hzero hlt, lowDigits, if_neg (fun h => hnum (hzero.mpr h)),
      List.nil_append]
    refine congrArg some (List.map_congr_left fun d hd => ?_)
    rw [digits, if_pos (Nat.digits_lt_base (by decide) hd)]

/-- What `%d` prints of a number. -/
theorem printNumber_decimal (w : LongWidth) (i : Int32) (pad : UInt8) :
    printNumber w i.toInt 10 true (-1) pad = some (decimal i.toInt) := by
  rcases toInt_cases i with ⟨n, hn, hi⟩ | ⟨n, hpos, hn, hi⟩
  · have hmod : (n : Int) % 2 ^ 32 = n := by omega
    have hdigits := tmpNumber_eq w hmod (by omega) (by omega)
    have hpositive : ¬ (n : Int) < 0 := by omega
    have hwidth : (-1 - ((lowDigits 10 n).length : Int)).toNat = 0 := by omega
    rw [hi, decimal_natCast]
    unfold printNumber
    simp only [hpositive, and_false, if_false, hdigits, Option.bind_eq_bind, Option.bind_some, length_rawDigits,
      hwidth, List.replicate_zero, List.nil_append]
    rw [rawDigits, ← List.map_reverse, ← rawDigits]
  · have hmod : w.wrap n % 2 ^ 32 = n := by
      rw [w.wrap_mod]
      omega
    have hdigits := tmpNumber_eq w hmod (by omega) (by omega)
    have hnegative : -(n : Int) < 0 := by omega
    have hwidth : (-1 - 1 - ((lowDigits 10 n).length : Int)).toNat = 0 := by omega
    rw [hi, decimal_neg hpos]
    unfold printNumber
    simp only [hnegative, and_self, if_true, Int.neg_neg, hdigits, Option.bind_eq_bind, Option.bind_some,
      length_rawDigits, hwidth, List.replicate_zero, List.append_nil]
    rw [rawDigits, ← List.map_reverse, ← rawDigits]
    rfl

/-- `"%d"`. -/
def percentD : List UInt8 := [37, 100]

theorem ucxSprintf_decimal (w : LongWidth) (i : Int32) (out : Nat) (mem : Nat → UInt8) :
    ucxSprintf w out percentD [.num i.toInt] mem = some (put mem out (decimal i.toInt ++ [0])) := by
  have harg : printArg w [100] [.num i.toInt] (-1) 32 = some (decimal i.toInt, [], []) := by
    have hprint := printNumber_decimal w i 32
    simp [printArg, current, next, hprint]
  have hprinted : ucxVsprintf w 3 percentD [.num i.toInt] = some (decimal i.toInt) := by
    simp [percentD, ucxVsprintf, current, harg]
  exact congrArg (Option.map _) hprinted

/-! ## `ucx_atoi` -/

theorem slice_cons {c : UInt8} {cs : List UInt8} {count : Nat} (h : slice mem s (count + 1) = c :: cs) :
    mem s = c ∧ slice mem (s + 1) count = cs := by
  rw [slice_succ, List.cons.injEq] at h
  exact h

/-- A digit as a character. -/
theorem toNat_rawDigit {d : Nat} (hd : d < 10) : (UInt8.ofNat (48 + d)).toNat = 48 + d := by
  rw [UInt8.toNat_ofNat']
  omega

theorem rawDigit_range {d : Nat} (hd : d < 10) : 48 ≤ UInt8.ofNat (48 + d) ∧ UInt8.ofNat (48 + d) ≤ 57 := by
  rw [UInt8.le_iff_toNat_le, UInt8.le_iff_toNat_le, toNat_rawDigit hd]
  exact ⟨by simp, by simp; omega⟩

/-- Digits with a 0 behind them are read, and the value is that of all of them, modulo 2^32. -/
theorem atoiDigits_eq (hds : ∀ d ∈ ds, d < 10) (hmem : slice mem s (ds.length + 1) = rawDigits ds ++ [0])
    (hturns : ds.length < turns) (v : Nat) :
    atoiDigits mem turns s (Int32.ofInt v) = some (Int32.ofInt (value 10 v ds : Nat)) := by
  induction ds generalizing s turns v with
  | nil =>
      obtain ⟨k, rfl⟩ : ∃ k, turns = k + 1 := ⟨turns - 1, by omega⟩
      have hend : mem s = 0 := (slice_cons hmem).1
      rw [atoiDigits, if_neg (by rw [hend]; decide)]
      rfl
  | cons d ds ih =>
      obtain ⟨k, rfl⟩ : ∃ k, turns = k + 1 := ⟨turns - 1, by omega⟩
      have hd : d < 10 := hds d List.mem_cons_self
      have hparts := slice_cons hmem
      have hvalue : Int32.ofInt v * 10 + Int32.ofInt (mem s).toNat - 48 = Int32.ofInt ((v * 10 + d : Nat) : Int) := by
        have hsum : ((v * 10 + d : Nat) : Int) = (v : Int) * 10 + ((48 + d : Nat) : Int) - 48 := by omega
        rw [hparts.1, toNat_rawDigit hd, hsum, Int32.ofInt_sub, Int32.ofInt_add, Int32.ofInt_mul]
        rfl
      rw [atoiDigits, if_pos (by rw [hparts.1]; exact rawDigit_range hd), hvalue,
        ih (fun d' hd' => hds d' (List.mem_cons_of_mem _ hd')) hparts.2 (by simpa using hturns)]
      rfl

theorem ucxAtoi_digits (hs : 48 ≤ mem s) (turns : Nat) : ucxAtoi mem (turns + 1) s = atoiDigits mem turns s 0 := by
  have hne : ∀ c < 48, mem s ≠ c := by
    intro c hc heq
    rw [heq] at hs
    exact absurd hs (UInt8.not_le.mpr hc)
  rw [ucxAtoi, if_neg (not_or.mpr ⟨hne 32 (by decide), hne 9 (by decide)⟩), if_neg (hne 45 (by decide)),
    if_neg (hne 43 (by decide))]

theorem ucxAtoi_minus (hs : mem s = 45) (turns : Nat) :
    ucxAtoi mem (turns + 1) s = (atoiDigits mem turns (s + 1) 0).map fun n => -n := by
  rw [ucxAtoi, if_neg (by rw [hs]; decide), if_pos hs]

/-- The digits of a number are read. -/
theorem atoiDigits_lowDigits (hn : n < 10 ^ 10)
    (hmem : slice mem s ((lowDigits 10 n).length + 1) = rawDigits (lowDigits 10 n).reverse ++ [0])
    (hturns : 10 < turns) : atoiDigits mem turns s 0 = some (Int32.ofInt n) := by
  have hlen := (length_lowDigits_le_iff (by decide) n (by decide)).mpr hn
  have hds : ∀ d ∈ (lowDigits 10 n).reverse, d < 10 := fun d hd =>
    lt_of_mem_lowDigits (by decide) (List.mem_reverse.mp hd)
  rw [← List.length_reverse] at hmem hlen
  have hread := atoiDigits_eq hds hmem (Nat.lt_of_le_of_lt hlen hturns) 0
  rw [value_lowDigits] at hread
  exact hread

/-- `ucx_atoi` reads back what has been written in decimal. -/
theorem ucxAtoi_decimal (i : Int32) (hmem : slice mem s ((decimal i.toInt).length + 1) = decimal i.toInt ++ [0])
    (turns : Nat) : ucxAtoi mem (turns + 12) s = some i := by
  rcases toInt_cases i with ⟨n, hn, hi⟩ | ⟨n, hpos, hn, hi⟩
  · rw [hi, decimal_natCast, length_rawDigits, List.length_reverse] at hmem
    obtain ⟨d, ds, hcons⟩ : ∃ d ds, (lowDigits 10 n).reverse = d :: ds :=
      List.exists_cons_of_ne_nil (List.reverse_ne_nil_iff.mpr (lowDigits_ne_nil (by decide) n))
    have hd : d < 10 := lt_of_mem_lowDigits (by decide) (List.mem_reverse.mp (hcons ▸ List.mem_cons_self))
    have hfirst : 48 ≤ mem s := by
      have hread := hmem
      rw [hcons] at hread
      rw [(slice_cons hread).1]
      exact (rawDigit_range hd).1
    rw [ucxAtoi_digits hfirst, atoiDigits_lowDigits (by omega) hmem (by omega), ← hi, Int32.ofInt_toInt]
  · rw [hi, decimal_neg hpos, List.length_cons, length_rawDigits, List.length_reverse] at hmem
    obtain ⟨hfirst, hrest⟩ := slice_cons hmem
    rw [ucxAtoi_minus hfirst, atoiDigits_lowDigits (by omega) hrest (by omega), Option.map_some,
      ← Int32.ofInt_neg, ← hi, Int32.ofInt_toInt]

/-- The decimal conversions agree: `ucx_itoa` and `ucx_sprintf` write the number in decimal, and `ucx_atoi` reads
    it back. -/
theorem decimal_conversions (w : LongWidth) (i : Int32) (s out turns : Nat) (mem : Nat → UInt8) :
    ucxItoa i s 10 mem = some (put mem s (decimal i.toInt ++ [0]))
      ∧ ucxSprintf w out percentD [.num i.toInt] mem = some (put mem out (decimal i.toInt ++ [0]))
      ∧ ucxAtoi (put mem s (decimal i.toInt ++ [0])) (turns + 12) s = some i := by
  refine ⟨ucxItoa_ten i s mem, ucxSprintf_decimal w i out mem, ucxAtoi_decimal i ?_ turns⟩
  have hread := slice_put mem s (decimal i.toInt ++ [0])
  rw [List.length_append, List.length_singleton] at hread
  exact hread

/-- The least number there is. -/
example : decimal (-2147483648) = [45, 50, 49, 52, 55, 52, 56, 51, 54, 52, 56] := by decide

end Libc

end UcxArinc
