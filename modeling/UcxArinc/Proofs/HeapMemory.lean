import UcxArinc.Implementation.Malloc
import Mathlib.Tactic.Common

set_option autoImplicit false

/-! # Words and block headers

What a write of a word or of a block header does to the words and headers of the memory. -/

namespace UcxArinc

variable {mem mem' : Area} {a b n w x : Nat}

/-! ## Unsigned arithmetic -/

/-- A difference that does not wrap. -/
theorem u32Sub_eq (h : b ≤ a) (ha : a < 2 ^ 32) : u32Sub a b = a - b := by
  unfold u32Sub u32
  omega

theorem align4_eq (h : x + 3 < 2 ^ 32) : align4 x = (x + 3) / 4 * 4 := by
  unfold align4 u32
  omega

theorem align4_aligned (x : Nat) : align4 x % 4 = 0 := by
  unfold align4 u32
  omega

theorem le_align4 (h : x + 3 < 2 ^ 32) : x ≤ align4 x := by
  rw [align4_eq h]
  omega

/-! ## Words -/

/-- The memories agree on the `n` bytes from `a` on. -/
def SameBytes (mem mem' : Area) (a n : Nat) : Prop := ∀ x, a ≤ x → x < a + n → mem' x = mem x

theorem SameBytes.sub (h : SameBytes mem mem' a n) (hb : a ≤ b) (hx : b + x ≤ a + n) :
    SameBytes mem mem' b x := fun y h₁ h₂ => h y (by omega) (by omega)

theorem word_lt (mem : Area) (a : Nat) : mem.word a < 2 ^ 32 := by
  unfold Area.word
  have h₀ := (mem a).toNat_lt
  have h₁ := (mem (a + 1)).toNat_lt
  have h₂ := (mem (a + 2)).toNat_lt
  have h₃ := (mem (a + 3)).toNat_lt
  omega

theorem next_lt (mem : Area) (a : Nat) : mem.next a < 2 ^ 32 := word_lt mem a

theorem word_congr (h : SameBytes mem mem' a 4) : mem'.word a = mem.word a := by
  unfold Area.word
  rw [h a (by omega) (by omega), h (a + 1) (by omega) (by omega), h (a + 2) (by omega) (by omega),
    h (a + 3) (by omega) (by omega)]

theorem setWord_apply (mem : Area) (a w i : Nat) (hi : i < 4) :
    mem.setWord a w (a + i) = UInt8.ofNat (w / 2 ^ (8 * i)) := by
  unfold Area.setWord
  rw [if_pos ⟨by omega, by omega⟩, Nat.add_sub_cancel_left]

theorem setWord_of_out (h : x < a ∨ a + 4 ≤ x) (mem : Area) (w : Nat) : mem.setWord a w x = mem x := by
  unfold Area.setWord
  exact if_neg (by omega)

theorem word_setWord_self (hw : w < 2 ^ 32) (mem : Area) (a : Nat) : (mem.setWord a w).word a = w := by
  have h₀ := setWord_apply mem a w 0 (by omega)
  have h₁ := setWord_apply mem a w 1 (by omega)
  have h₂ := setWord_apply mem a w 2 (by omega)
  have h₃ := setWord_apply mem a w 3 (by omega)
  rw [Nat.add_zero] at h₀
  unfold Area.word
  rw [h₀, h₁, h₂, h₃]
  simp only [UInt8.toNat_ofNat']
  omega

/-! ## Headers -/

theorem next_congr (h : SameBytes mem mem' b 8) : mem'.next b = mem.next b :=
  word_congr (h.sub (by omega) (by omega))

theorem size_congr (h : SameBytes mem mem' b 8) : mem'.size b = mem.size b :=
  word_congr (h.sub (by omega) (by omega))

theorem used_congr (h : SameBytes mem mem' b 8) : mem'.used b = mem.used b := by
  unfold Area.used
  rw [size_congr h]

theorem used_eq_true : mem.used b = true ↔ mem.size b % 2 = 1 := decide_eq_true_iff

theorem used_eq_false : mem.used b = false ↔ mem.size b % 2 = 0 := by
  unfold Area.used
  rw [decide_eq_false_iff_not]
  omega

theorem setNext_same (mem : Area) (a w : Nat) (h : b + n ≤ a ∨ a + 4 ≤ b) :
    SameBytes mem (mem.setNext a w) b n := fun x _ _ => setWord_of_out (by omega) mem w

theorem setSize_same (mem : Area) (a w : Nat) (h : b + n ≤ a + 4 ∨ a + 8 ≤ b) :
    SameBytes mem (mem.setSize a w) b n := fun x _ _ => setWord_of_out (by omega) mem w

@[simp] theorem next_setSize (mem : Area) (a w : Nat) : (mem.setSize a w).next a = mem.next a :=
  word_congr (setSize_same mem a w (by omega))

@[simp] theorem size_setNext (mem : Area) (a w : Nat) : (mem.setNext a w).size a = mem.size a :=
  word_congr (setNext_same mem a w (by omega))

theorem next_setNext (hw : w < 2 ^ 32) (mem : Area) (a : Nat) : (mem.setNext a w).next a = w :=
  word_setWord_self hw mem a

theorem size_setSize (hw : w < 2 ^ 32) (mem : Area) (a : Nat) : (mem.setSize a w).size a = w :=
  word_setWord_self hw mem (a + 4)

theorem SameBytes.trans {mem'' : Area} (h : SameBytes mem mem' a n) (h' : SameBytes mem' mem'' a n) :
    SameBytes mem mem'' a n := fun x h₁ h₂ => (h' x h₁ h₂).trans (h x h₁ h₂)

/-! ## Coalescing -/

/-- The free blocks from `q` to `p` have become one, with its size. -/
theorem coalesce_spec {q p : Nat} (hqp : q + 8 ≤ p) (hp : p < 2 ^ 32) :
    (coalesce mem q p).next q = p ∧ (coalesce mem q p).size q = p - q - 8 := by
  unfold coalesce memBlockSize
  rw [u32Sub_eq (by omega) hp, u32Sub_eq (by omega) (by omega)]
  refine ⟨next_setNext hp _ _, ?_⟩
  rw [size_setNext, size_setSize (by omega)]

theorem coalesce_same {q p : Nat} (h : b + n ≤ q ∨ q + 8 ≤ b) : SameBytes mem (coalesce mem q p) b n :=
  (setSize_same mem q _ (by omega)).trans (setNext_same _ q p (by omega))

/-! ## Splitting -/

/-- The two blocks a split leaves. -/
structure SplitInto (mem mem' : Area) (p m size : Nat) : Prop where
  next : mem'.next p = m
  size_eq : mem'.size p = size + 1
  restNext : mem'.next m = mem.next p
  restFree : mem'.used m = false
  same : ∀ b n, (b + n ≤ p ∨ p + 8 ≤ b) → (b + n ≤ m ∨ m + 8 ≤ b) → SameBytes mem mem' b n

theorem splitBlock_spec {p size : Nat} (hsize : size % 4 = 0) (hm : p + size + 8 < 2 ^ 32) :
    SplitInto mem (splitBlock mem p size) p (p + size + 8) size := by
  have hmod : u32 (p + size + memBlockSize) = p + size + 8 := Nat.mod_eq_of_lt hm
  have hused : size / 2 * 2 + 1 = size + 1 := by omega
  -- the size computed for the new block is 8 below zero
  have hrest : u32Sub (u32Sub ((size + 1) / 2 * 2) size) memBlockSize = 2 ^ 32 - 8 := by
    unfold u32Sub u32 memBlockSize
    omega
  unfold splitBlock
  dsimp only
  rw [hmod, hused]
  generalize ht : (mem.setNext p (p + size + 8)).setSize p (size + 1) = t
  have hnext : t.next p = p + size + 8 := by rw [← ht, next_setSize, next_setNext hm]
  have hsz : t.size p = size + 1 := by rw [← ht, size_setSize (by omega)]
  have htsame : ∀ b n, (b + n ≤ p ∨ p + 8 ≤ b) → SameBytes mem t b n := fun b n h => by
    rw [← ht]
    exact (setNext_same mem p _ (by omega)).trans (setSize_same _ p _ (by omega))
  rw [hnext, hsz, hrest]
  have hsame : ∀ b n, (b + n ≤ p + size + 8 ∨ p + size + 16 ≤ b) →
      SameBytes t ((t.setNext (p + size + 8) (mem.next p)).setSize (p + size + 8) (2 ^ 32 - 8)) b n :=
    fun b n h => (setNext_same t _ _ (by omega)).trans (setSize_same _ _ _ (by omega))
  exact {
    next := by rw [next_congr (hsame p 8 (by omega)), hnext]
    size_eq := by rw [size_congr (hsame p 8 (by omega)), hsz]
    restNext := by rw [next_setSize, next_setNext (next_lt mem p)]
    restFree := by
      rw [used_eq_false, size_setSize (by omega)]
      omega
    same := fun b n h₁ h₂ => (htsame b n h₁).trans (hsame b n (by omega)) }

end UcxArinc
