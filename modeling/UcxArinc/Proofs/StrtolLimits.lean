import UcxArinc.Proofs.NumberStrings

set_option autoImplicit false

/-! # What `ucx_strtol` reads back

Its loop takes nine characters at most, and `*end` is found from where the loop has stopped. That is enough for the
eight digits a number has in base 16, and for eight digits in base 10. -/

namespace UcxArinc

namespace Libc

open Cells Numerals

variable {mem : Nat → UInt8} {b n s : Nat} {ds : List Nat}

/-! ## Digits as characters -/

theorem digitValue_digits : ∀ d < 16, digitValue (digits d) = some (UInt32.ofNat d) := by decide

theorem letter_rawDigit : ∀ d < 16, letter (UInt8.ofNat (48 + d)) = digits d := by decide

/-- No digit is the end of a string, a sign, or the second character of a prefix. -/
theorem digits_ne : ∀ d < 16, digits d ≠ 0 ∧ digits d ≠ 45 ∧ digits d ≠ 120 := by decide

theorem rawDigits_eq (hds : ∀ d ∈ ds, d < 10) : rawDigits ds = ds.map digits := by
  refine List.map_congr_left fun d hd => ?_
  rw [digits, if_pos (hds d hd)]

/-! ## Base 16 -/

/-- The digits `ucx_itoa` writes in base 16: two at least. -/
def hexDigits (n : Nat) : List Nat := (if n < 16 then [0] else []) ++ (lowDigits 16 n).reverse

theorem lt_of_mem_hexDigits {d : Nat} (hd : d ∈ hexDigits n) : d < 16 := by
  unfold hexDigits at hd
  rcases List.mem_append.mp hd with hzero | hdigit
  · by_cases hn : n < 16
    · rw [if_pos hn, List.mem_singleton] at hzero
      omega
    · rw [if_neg hn] at hzero
      exact absurd hzero List.not_mem_nil
  · exact lt_of_mem_lowDigits (by decide) (List.mem_reverse.mp hdigit)

theorem value_hexDigits (n : Nat) : value 16 0 (hexDigits n) = n := by
  unfold hexDigits
  by_cases hn : n < 16
  · rw [if_pos hn]
    exact value_lowDigits 16 n
  · rw [if_neg hn]
    exact value_lowDigits 16 n

theorem length_hexDigits_le (hn : n < 2 ^ 32) : (hexDigits n).length ≤ 8 := by
  unfold hexDigits
  rw [List.length_append, List.length_reverse]
  by_cases hsmall : n < 16
  · have hlen := (length_lowDigits_le_iff (by decide : 1 < 16) n (by decide : 0 < 1)).mpr hsmall
    rw [if_pos hsmall, List.length_singleton]
    omega
  · have hlen := (length_lowDigits_le_iff (by decide : 1 < 16) n (by decide : 0 < 8)).mpr hn
    rw [if_neg hsmall, List.length_nil]
    omega

/-- The unsigned number a signed one is converted to. -/
theorem toInt_eq_toNat (i : Int32) :
    i.toInt = if i.toUInt32.toNat < 2 ^ 31 then (i.toUInt32.toNat : Int) else i.toUInt32.toNat - 2 ^ 32 := by
  have hcond : i.toInt = if 2 * i.toUInt32.toNat < 2 ^ 32 then (i.toUInt32.toNat : Int)
      else i.toUInt32.toNat - (2 ^ 32 : Nat) := BitVec.toInt_eq_toNat_cond _
  rw [hcond]
  by_cases hhalf : i.toUInt32.toNat < 2 ^ 31
  · rw [if_pos hhalf, if_pos (by omega)]
  · rw [if_neg hhalf, if_neg (by omega)]
    rfl

theorem small_iff (i : Int32) : (i ≥ 0 ∧ i < 16) ↔ i.toUInt32.toNat < 16 := by
  have hge : i ≥ 0 ↔ 0 ≤ i.toInt := Int32.le_iff_toInt_le
  have hlt : i < 16 ↔ i.toInt < 16 := Int32.lt_iff_toInt_lt
  have hu := UInt32.toNat_lt i.toUInt32
  rw [hge, hlt, toInt_eq_toNat]
  by_cases hhalf : i.toUInt32.toNat < 2 ^ 31
  · rw [if_pos hhalf]
    omega
  · rw [if_neg hhalf]
    omega

/-- Digits with another 0 behind the last, if there is only one. -/
theorem extraDigit (n s : Nat) (mem : Nat → UInt8) :
    (if n < 16 then (s + (lowDigits 16 n).length + 1,
          Function.update (put mem s (rawDigits (lowDigits 16 n))) (s + (lowDigits 16 n).length) 48)
        else (s + (lowDigits 16 n).length, put mem s (rawDigits (lowDigits 16 n))))
      = (s + (hexDigits n).length, put mem s (rawDigits (hexDigits n).reverse)) := by
  unfold hexDigits
  by_cases hn : n < 16
  · rw [if_pos hn, if_pos hn, List.reverse_append, List.reverse_reverse, rawDigits_append, put_append,
      length_rawDigits]
    simp [put_cons, Nat.add_comm, Nat.add_left_comm]
  · rw [if_neg hn, if_neg hn]
    simp

/-- In base 16 `ucx_itoa` writes the digits of the unsigned number. -/
theorem ucxItoa_sixteen (i : Int32) (s : Nat) (mem : Nat → UInt8) :
    ucxItoa i s 16 mem = some (put mem s ((hexDigits i.toUInt32.toNat).map digits ++ [0])) := by
  have hu := UInt32.toNat_lt i.toUInt32
  have hturns : i.toUInt32.toNat < 16 ^ (32 + 1) := by omega
  have hdigits := digitLoop_eq (fun rem => 48 + rem) (.inl rfl) (fun r => by rw [Int.one_mul]) (by decide) hturns s mem
  rw [Int.one_mul, Nat.cast_ofNat] at hdigits
  have hlen : (rawDigits (hexDigits i.toUInt32.toNat).reverse).length ≤ s + (hexDigits i.toUInt32.toNat).length := by
    simp
  have hturn := swapLoop_put letter mem s (rawDigits (hexDigits i.toUInt32.toNat).reverse) hlen
  have hletters : (rawDigits (hexDigits i.toUInt32.toNat).reverse).reverse.map letter
      = (hexDigits i.toUInt32.toNat).map digits := by
    rw [rawDigits, ← List.map_reverse, List.reverse_reverse, List.map_map]
    exact List.map_congr_left fun d hd => letter_rawDigit d (lt_of_mem_hexDigits hd)
  rw [length_rawDigits, List.length_reverse, hletters] at hturn
  rw [ucxItoa, if_neg (by decide), if_pos rfl, hdigits]
  simp only [Option.bind_eq_bind, Option.bind_some, small_iff, extraDigit]
  exact hturn

/-! ## The loop -/

/-- Nine characters at most are read; what is behind the digits ends the loop. -/
theorem strtolLoop_eq (hb : b ≤ 16) (hds : ∀ d ∈ ds, d < b)
    (hmem : slice mem s (ds.length + 1) = ds.map digits ++ [0]) (turns v : Nat) :
    strtolLoop mem (UInt32.ofNat b) turns s (UInt32.ofNat v)
      = (UInt32.ofNat (value b v (ds.take turns)), s + min turns (ds.length + 1)) := by
  induction turns generalizing s v ds with
  | zero => simp [strtolLoop, value]
  | succ turns ih =>
      cases ds with
      | nil =>
          have hend : digitValue (mem s) = none := by
            rw [(slice_cons hmem).1]
            rfl
          rw [strtolLoop, hend]
          simp [value]
      | cons d ds =>
          obtain ⟨hfirst, hrest⟩ := slice_cons hmem
          have hd : d < b := hds d List.mem_cons_self
          have hdigit : digitValue (mem s) = some (UInt32.ofNat d) := by
            rw [hfirst]
            exact digitValue_digits d (by omega)
          rw [strtolLoop, hdigit]
          dsimp only
          rw [← UInt32.ofNat_mul, ← UInt32.ofNat_add, ih (fun d' hd' => hds d' (List.mem_cons_of_mem _ hd')) hrest]
          refine Prod.ext rfl ?_
          simp only [List.length_cons]
          omega

/-! ## `ucx_strtol` -/

/-- What is in front of digits is no prefix. -/
theorem not_prefix (hds : ∀ d ∈ ds, d < 16) (hmem : slice mem s (ds.length + 1) = ds.map digits ++ [0]) :
    ¬ (mem s = 48 ∧ mem (s + 1) = 120) := by
  rintro ⟨hzero, hx⟩
  cases ds with
  | nil =>
      rw [(slice_cons hmem).1] at hzero
      exact absurd hzero (by decide)
  | cons d ds =>
      have hrest := (slice_cons hmem).2
      cases ds with
      | nil =>
          rw [(slice_cons hrest).1] at hx
          exact absurd hx (by decide)
      | cons d' ds =>
          rw [(slice_cons hrest).1] at hx
          exact (digits_ne d' (hds d' (by simp))).2.2 hx

/-- What is read of digits without a sign. -/
theorem ucxStrtol_digits (base : Int32) (hb : b ≤ 16) (hds : ∀ d ∈ ds, d < b)
    (hmem : slice mem s (ds.length + 1) = ds.map digits ++ [0]) (hbase : base.toUInt32 = UInt32.ofNat b) :
    ucxStrtol mem s base = ((UInt32.ofNat (value b 0 (ds.take 9))).toInt32, s + min 8 ds.length) := by
  have hsmall : ∀ d ∈ ds, d < 16 := fun d hd => Nat.lt_of_lt_of_le (hds d hd) hb
  have hsign : mem s ≠ 45 := by
    cases ds with
    | nil =>
        rw [(slice_cons hmem).1]
        decide
    | cons d ds =>
        rw [(slice_cons hmem).1]
        exact (digits_ne d (hsmall d List.mem_cons_self)).2.1
  have hread : strtolLoop mem (UInt32.ofNat b) 9 s 0 = _ := strtolLoop_eq hb hds hmem 9 0
  have hend : s + min 9 (ds.length + 1) - 1 = s + min 8 ds.length := by omega
  unfold ucxStrtol
  simp only [hsign, if_false, not_prefix hsmall hmem, hbase, hread, hend]

/-- What is read of digits behind a minus. -/
theorem ucxStrtol_minus (base : Int32) (hb : b ≤ 16) (hds : ∀ d ∈ ds, d < b) (hsign : mem s = 45)
    (hmem : slice mem (s + 1) (ds.length + 1) = ds.map digits ++ [0]) (hbase : base.toUInt32 = UInt32.ofNat b) :
    ucxStrtol mem s base = (-(UInt32.ofNat (value b 0 (ds.take 9))).toInt32, s + 1 + min 8 ds.length) := by
  have hsmall : ∀ d ∈ ds, d < 16 := fun d hd => Nat.lt_of_lt_of_le (hds d hd) hb
  have hread : strtolLoop mem (UInt32.ofNat b) 9 (s + 1) 0 = _ := strtolLoop_eq hb hds hmem 9 0
  have hend : s + 1 + min 9 (ds.length + 1) - 1 = s + 1 + min 8 ds.length := by omega
  unfold ucxStrtol
  simp only [hsign, if_true, not_prefix hsmall hmem, if_false, hbase, hread, hend, Int32.toInt32_toUInt32]

/-! ## Reading back -/

/-- `ucx_strtol` reads back what `ucx_itoa` writes, up to the 0 behind it. -/
def ReadsBack (i base : Int32) (s : Nat) (mem : Nat → UInt8) : Prop :=
  ∃ mem' last, ucxItoa i s base.toInt mem = some mem' ∧ ucxStrtol mem' s base = (i, last)
    ∧ s ≤ last ∧ mem' last = 0 ∧ ∀ j, s ≤ j → j < last → mem' j ≠ 0

/-- The first 0 of a string is the one behind it. -/
theorem last_iff {cs : List UInt8} (hcs : ∀ c ∈ cs, c ≠ 0) (last : Nat) :
    (s ≤ last ∧ put mem s (cs ++ [0]) last = 0 ∧ ∀ j, s ≤ j → j < last → put mem s (cs ++ [0]) j ≠ 0)
      ↔ last = s + cs.length := by
  have hend : put mem s (cs ++ [0]) (s + cs.length) = 0 := by
    rw [put_append, put_cons, put_nil, Function.update_self]
  have hinside : ∀ j, s ≤ j → j < s + cs.length → put mem s (cs ++ [0]) j ≠ 0 := by
    intro j hge hlt
    have hk : j - s < cs.length := by omega
    rw [put, if_pos hge, List.getElem?_append_left hk, List.getElem?_eq_getElem hk, Option.getD_some]
    exact hcs _ (List.getElem_mem hk)
  constructor
  · rintro ⟨hge, hzero, hbefore⟩
    rcases Nat.lt_trichotomy last (s + cs.length) with hlt | heq | hgt
    · exact absurd hzero (hinside last hge hlt)
    · exact heq
    · exact absurd hend (hbefore _ (Nat.le_add_right _ _) hgt)
  · rintro rfl
    exact ⟨Nat.le_add_right _ _, hend, hinside⟩

/-- What has been written is there to be read. -/
theorem slice_string (mem : Nat → UInt8) (s : Nat) (cs : List UInt8) :
    slice (put mem s (cs ++ [0])) s (cs.length + 1) = cs ++ [0] := by
  have hread := slice_put mem s (cs ++ [0])
  rw [List.length_append, List.length_singleton] at hread
  exact hread

theorem slice_digits (mem : Nat → UInt8) (s : Nat) (ds : List Nat) :
    slice (put mem s (ds.map digits ++ [0])) s (ds.length + 1) = ds.map digits ++ [0] := by
  have hread := slice_string mem s (ds.map digits)
  rw [List.length_map] at hread
  exact hread

/-- A number is read back if the loop has stopped at the end of its string, where the value is right. -/
theorem readsBack_iff_of {i r base : Int32} {cs : List UInt8} {last : Nat} {small : Prop}
    (hitoa : ucxItoa i s base.toInt mem = some (put mem s (cs ++ [0]))) (hcs : ∀ c ∈ cs, c ≠ 0)
    (hread : ucxStrtol (put mem s (cs ++ [0])) s base = (r, last)) (hlast : last = s + cs.length ↔ small)
    (hvalue : small → r = i) : ReadsBack i base s mem ↔ small := by
  constructor
  · rintro ⟨mem', last', hwritten, hback, hend⟩
    obtain rfl := Option.some.inj (hitoa.symm.trans hwritten)
    obtain ⟨-, rfl⟩ := Prod.mk.inj (hread.symm.trans hback)
    exact hlast.mp ((last_iff hcs _).mp hend)
  · intro hsmall
    rw [hvalue hsmall] at hread
    exact ⟨_, _, hitoa, hread, (last_iff hcs _).mpr (hlast.mpr hsmall)⟩

theorem digits_ne_zero (hds : ∀ d ∈ ds, d < 16) : ∀ c ∈ ds.map digits, c ≠ 0 := by
  intro c hc
  obtain ⟨d, hd, rfl⟩ := List.mem_map.mp hc
  exact (digits_ne d (hds d hd)).1

theorem readsBack_sixteen (i : Int32) (s : Nat) (mem : Nat → UInt8) : ReadsBack i 16 s mem := by
  have hlen := length_hexDigits_le (UInt32.toNat_lt i.toUInt32)
  have hds : ∀ d ∈ hexDigits i.toUInt32.toNat, d < 16 := fun d hd => lt_of_mem_hexDigits hd
  have hread := ucxStrtol_digits 16 (by decide : 16 ≤ 16) hds
    (slice_digits mem s _) rfl
  rw [List.take_of_length_le (by omega), value_hexDigits, Nat.min_eq_right hlen, UInt32.ofNat_toNat] at hread
  have hlast : s + (hexDigits i.toUInt32.toNat).length = s + ((hexDigits i.toUInt32.toNat).map digits).length ↔ True := by
    rw [List.length_map]
    exact iff_true_intro rfl
  exact (readsBack_iff_of (ucxItoa_sixteen i s mem) (digits_ne_zero hds) hread hlast fun _ => rfl).mpr trivial

/-- The value of a number that has at most eight digits. -/
theorem value_take_lowDigits (hlen : (lowDigits 10 n).length ≤ 8) :
    (UInt32.ofNat (value 10 0 ((lowDigits 10 n).reverse.take 9))).toInt32 = Int32.ofInt n := by
  rw [List.take_of_length_le (by rw [List.length_reverse]; omega), value_lowDigits]
  rfl

/-- Whether a number is read back depends on how many digits it has in base 10. -/
theorem readsBack_ten_iff (i : Int32) (s : Nat) (mem : Nat → UInt8) :
    ReadsBack i 10 s mem ↔ -10 ^ 8 < i.toInt ∧ i.toInt < 10 ^ 8 := by
  have hitoa := ucxItoa_ten i s mem
  rcases toInt_cases i with ⟨n, hn, hi⟩ | ⟨n, hpos, hn, hi⟩
  · have hlen := length_lowDigits_le_iff (by decide : 1 < 10) n (by decide : 0 < 8)
    have hds : ∀ d ∈ (lowDigits 10 n).reverse, d < 10 := fun d hd =>
      lt_of_mem_lowDigits (by decide) (List.mem_reverse.mp hd)
    rw [hi, decimal_natCast, rawDigits_eq hds] at hitoa
    have hread := ucxStrtol_digits 10 (by decide : 10 ≤ 16) hds
      (slice_digits mem s _) rfl
    refine readsBack_iff_of hitoa (digits_ne_zero fun d hd => Nat.lt_trans (hds d hd) (by decide)) hread ?_ ?_
    · rw [List.length_map, List.length_reverse, hi]
      omega
    · intro hsmall
      rw [value_take_lowDigits (hlen.mpr (by omega)), ← hi, Int32.ofInt_toInt]
  · have hlen := length_lowDigits_le_iff (by decide : 1 < 10) n (by decide : 0 < 8)
    have hds : ∀ d ∈ (lowDigits 10 n).reverse, d < 10 := fun d hd =>
      lt_of_mem_lowDigits (by decide) (List.mem_reverse.mp hd)
    rw [hi, decimal_neg hpos, rawDigits_eq hds] at hitoa
    obtain ⟨hsign, hstring⟩ := slice_cons (slice_string mem s (45 :: (lowDigits 10 n).reverse.map digits))
    rw [List.length_cons, List.length_map] at hstring
    have hread := ucxStrtol_minus 10 (by decide : 10 ≤ 16) hds hsign hstring rfl
    refine readsBack_iff_of hitoa ?_ hread ?_ ?_
    · intro c hc
      rcases List.mem_cons.mp hc with rfl | hc
      · decide
      · exact digits_ne_zero (fun d hd => Nat.lt_trans (hds d hd) (by decide)) c hc
    · rw [List.length_cons, List.length_map, List.length_reverse, hi]
      omega
    · intro hsmall
      rw [value_take_lowDigits (hlen.mpr (by omega)), ← Int32.ofInt_neg, ← hi, Int32.ofInt_toInt]

/-- A number is read back in both bases exactly if it has at most eight digits in base 10. -/
theorem readsBack_iff (i : Int32) (s : Nat) (mem : Nat → UInt8) :
    (ReadsBack i 10 s mem ∧ ReadsBack i 16 s mem) ↔ -10 ^ 8 < i.toInt ∧ i.toInt < 10 ^ 8 := by
  rw [readsBack_ten_iff]
  exact and_iff_left (readsBack_sixteen i s mem)

/-- 2147483647 is read as 214748364. -/
theorem not_readsBack : ¬ ∀ (i : Int32) (s : Nat) (mem : Nat → UInt8), ReadsBack i 10 s mem ∧ ReadsBack i 16 s mem := by
  intro h
  have hsmall := (readsBack_ten_iff 2147483647 0 fun _ => 0).mp (h 2147483647 0 fun _ => 0).1
  exact absurd hsmall.2 (by decide)

end Libc

end UcxArinc
