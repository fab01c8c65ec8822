import Mathlib.Algebra.BigOperators.Group.List.Basic
import Mathlib.Algebra.Group.Action.Defs
import Mathlib.Algebra.Order.BigOperators.Group.List
import Mathlib.Algebra.Order.Ring.Nat

set_option autoImplicit false

/-! # Ones' complement sums

Addition with an end-around carry, of numbers up to `m`, the one that is all ones. A sum is its remainder
by `m`, except that it is 0 only if everything added is 0. Zero thus has two forms, and of a number and its
complement the sum is always all ones. -/

namespace OnesComplement

variable {m a b s : Nat} {ws : List Nat}

/-- Addition with an end-around carry. -/
def add (m a b : Nat) : Nat := if a + b ≤ m then a + b else a + b - m

/-- The sum of words, with end-around carries. -/
def sum (m : Nat) (ws : List Nat) : Nat := ws.foldr (add m) 0

/-- What an ordinary sum becomes if its carries are added to it until there are none. -/
def residue (m s : Nat) : Nat := if s = 0 then 0 else (s - 1) % m + 1

@[simp] theorem residue_zero (m : Nat) : residue m 0 = 0 := rfl

theorem residue_of_pos (h : 0 < s) : residue m s = (s - 1) % m + 1 := if_neg (Nat.pos_iff_ne_zero.mp h)

theorem residue_le (hm : 0 < m) (s : Nat) : residue m s ≤ m := by
  rcases Nat.eq_zero_or_pos s with rfl | hs
  · exact Nat.zero_le m
  · rw [residue_of_pos hs]
    exact Nat.mod_lt _ hm

theorem residue_of_le (h : s ≤ m) : residue m s = s := by
  rcases Nat.eq_zero_or_pos s with rfl | hs
  · rfl
  · rw [residue_of_pos hs, Nat.mod_eq_of_lt (by omega)]
    omega

/-- A carry taken round changes nothing. -/
theorem residue_add_mul (hs : 0 < s) (k : Nat) : residue m (s + m * k) = residue m s := by
  rw [residue_of_pos hs, residue_of_pos (by omega), Nat.sub_add_comm hs, Nat.add_mul_mod_self_left]

/-- Carries may be taken round before adding more. -/
theorem residue_add (m a s : Nat) : residue m (a + residue m s) = residue m (a + s) := by
  rcases Nat.eq_zero_or_pos s with rfl | hs
  · rfl
  · have hsplit : a + s = a + residue m s + m * ((s - 1) / m) := by
      rw [residue_of_pos hs]
      have hdiv := Nat.mod_add_div (s - 1) m
      omega
    have hpos : 0 < a + residue m s := by
      rw [residue_of_pos hs]
      omega
    rw [hsplit, residue_add_mul hpos]

/-- All ones: a multiple of `m`, but not 0. -/
theorem residue_eq_iff (hm : 0 < m) : residue m s = m ↔ 0 < s ∧ m ∣ s := by
  rcases Nat.eq_zero_or_pos s with rfl | hs
  · simp [hm.ne]
  · rw [residue_of_pos hs]
    constructor
    · intro h
      have hdiv := Nat.mod_add_div (s - 1) m
      refine ⟨hs, (s - 1) / m + 1, ?_⟩
      rw [Nat.mul_add]
      omega
    · rintro ⟨-, k, rfl⟩
      obtain ⟨j, rfl⟩ : ∃ j, k = j + 1 := ⟨k - 1, by have := Nat.pos_of_mul_pos_left hs; omega⟩
      have hpred : m * (j + 1) - 1 = (m - 1) + m * j := by
        rw [Nat.mul_add]
        omega
      rw [hpred, Nat.add_mul_mod_self_left, Nat.mod_eq_of_lt (by omega)]
      omega

/-- A sum and its complement. -/
theorem residue_complement (hm : 0 < m) (s : Nat) : residue m (s + (m - residue m s)) = m := by
  rw [Nat.add_comm, ← residue_add]
  have hle := residue_le hm s
  rw [Nat.sub_add_cancel hle, residue_of_le le_rfl]

theorem add_eq (ha : a ≤ m) (hb : b ≤ m) : add m a b = residue m (a + b) := by
  unfold add
  split
  · exact (residue_of_le (by assumption)).symm
  · have hsplit : a + b = a + b - m + m * 1 := by omega
    rw [hsplit, residue_add_mul (by omega), residue_of_le (by omega)]
    omega

/-- A sum with end-around carries is the ordinary sum with its carries taken round. -/
theorem sum_eq (hm : 0 < m) (h : ∀ w ∈ ws, w ≤ m) : sum m ws = residue m ws.sum := by
  induction ws with
  | nil => rfl
  | cons w ws ih =>
      have hrest := ih fun v hv => h v (List.mem_cons_of_mem _ hv)
      have hstep : sum m (w :: ws) = add m w (sum m ws) := rfl
      rw [hstep, hrest, add_eq (h w List.mem_cons_self) (residue_le hm _), residue_add, List.sum_cons]

theorem sum_eq_iff (hm : 0 < m) (h : ∀ w ∈ ws, w ≤ m) : sum m ws = m ↔ 0 < ws.sum ∧ m ∣ ws.sum := by
  rw [sum_eq hm h, residue_eq_iff hm]

/-! ## Words of bytes -/

/-- Bytes by twos, the first of each two counting more; the last of an odd number is followed by a 0. -/
def words : List UInt8 → List Nat
  | [] => []
  | [hi] => [256 * hi.toNat]
  | hi :: lo :: bytes => (256 * hi.toNat + lo.toNat) :: words bytes

@[simp] theorem words_nil : words [] = [] := rfl

@[simp] theorem words_cons_cons (hi lo : UInt8) (bytes : List UInt8) :
    words (hi :: lo :: bytes) = (256 * hi.toNat + lo.toNat) :: words bytes := rfl

theorem words_le (bytes : List UInt8) : ∀ w ∈ words bytes, w ≤ 65535 := by
  induction bytes using words.induct with
  | case1 => simp
  | case2 hi =>
      have hhi := hi.toNat_lt
      intro w hw
      obtain rfl := List.mem_singleton.mp hw
      omega
  | case3 hi lo bytes ih =>
      have hhi := hi.toNat_lt
      have hlo := lo.toNat_lt
      intro w hw
      rcases List.mem_cons.mp hw with rfl | hrest
      · omega
      · exact ih w hrest

theorem length_words (bytes : List UInt8) : (words bytes).length = (bytes.length + 1) / 2 := by
  induction bytes using words.induct with
  | case1 => rfl
  | case2 hi => simp [words]
  | case3 hi lo bytes ih =>
      rw [words_cons_cons, List.length_cons, ih, List.length_cons, List.length_cons]
      omega

theorem sum_words_le (bytes : List UInt8) : (words bytes).sum ≤ (bytes.length + 1) / 2 * 65535 := by
  have hle := List.sum_le_card_nsmul (words bytes) 65535 (words_le bytes)
  rwa [length_words, smul_eq_mul] at hle

theorem words_append {xs ys : List UInt8} (h : xs.length % 2 = 0) : words (xs ++ ys) = words xs ++ words ys := by
  induction xs using words.induct with
  | case1 => rfl
  | case2 hi => simp at h
  | case3 hi lo xs ih =>
      rw [List.cons_append, List.cons_append, words_cons_cons, words_cons_cons, List.cons_append, ih]
      simp only [List.length_cons] at h
      omega

end OnesComplement
