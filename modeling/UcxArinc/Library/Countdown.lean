import Mathlib.Algebra.BigOperators.Group.Finset.Basic
import Mathlib.Algebra.Order.BigOperators.Group.Finset
import Mathlib.Tactic.Common

set_option autoImplicit false

/-! # Countdowns served at their minimum

Each member of a group counts down. A turn serves a member whose count is least, takes that minimum from
every other count and starts the member's own count again, at one or more. How ties are decided does not
matter: `backlog` bounds the turns that may pass before a member is served, so none starves. -/

namespace Countdown

variable {ι : Type*} [DecidableEq ι] {members : Finset ι} {count count' : ι → ℕ} {i j : ι}

/-- A turn of the group serves `i`. -/
structure Turn (members : Finset ι) (count : ι → ℕ) (i : ι) (count' : ι → ℕ) : Prop where
  mem : i ∈ members
  least : ∀ j ∈ members, count i ≤ count j
  reloaded : 1 ≤ count' i
  others : ∀ j ∈ members, j ≠ i → count' j = count j - count i

/-- How often the others can still be served before `i`: a member is served at most once at every level
    up to the count of `i`. -/
def backlog (members : Finset ι) (count : ι → ℕ) (i : ι) : ℕ :=
  ∑ j ∈ members.erase i, (count i + 1 - count j)

/-- A turn that serves another member shortens the backlog. -/
theorem Turn.backlog_lt (h : Turn members count j count') (hi : i ∈ members) (hij : i ≠ j) :
    backlog members count' i < backlog members count i := by
  have hleast := h.least i hi
  have hcount := h.others i hi hij
  unfold backlog
  refine Finset.sum_lt_sum (fun k hk => ?_) ⟨j, Finset.mem_erase.mpr ⟨hij.symm, h.mem⟩, ?_⟩
  · have hmem := Finset.mem_of_mem_erase hk
    have hmin := h.least k hmem
    by_cases hkj : k = j
    · subst hkj
      have := h.reloaded
      omega
    · have := h.others k hmem hkj
      omega
  · have := h.reloaded
    omega

/-- No backlog is longer than a turn of each other member at each level. -/
theorem backlog_le {bound : ℕ} (hi : i ∈ members) (hbound : count i ≤ bound) :
    backlog members count i ≤ (members.card - 1) * (bound + 1) := by
  unfold backlog
  refine (Finset.sum_le_card_nsmul _ _ (bound + 1) fun j _ => by omega).trans (le_of_eq ?_)
  rw [Finset.card_erase_of_mem hi, Nat.nsmul_eq_mul]

/-- Turn after turn, with the members served. -/
inductive Turns (members : Finset ι) : (ι → ℕ) → List ι → (ι → ℕ) → Prop
  | nil (count : ι → ℕ) : Turns members count [] count
  | cons {count count' count'' : ι → ℕ} {i : ι} {served : List ι} (h : Turn members count i count')
      (hrest : Turns members count' served count'') : Turns members count (i :: served) count''

/-- A member is served before its backlog is exceeded. -/
theorem Turns.mem_of_backlog_lt {served : List ι} (h : Turns members count served count')
    (hi : i ∈ members) (hlen : backlog members count i < served.length) : i ∈ served := by
  induction h with
  | nil count => simp at hlen
  | cons h hrest ih =>
      rename_i j rest
      by_cases hij : i = j
      · simp [hij]
      · have hlt := h.backlog_lt hi hij
        simp only [List.length_cons] at hlen
        exact List.mem_cons_of_mem _ (ih (by omega))

/-- No member starves: with counts up to `bound`, each is served in every `(bound + 1) * n` turns. -/
theorem Turns.mem_of_length {bound : ℕ} {served : List ι} (h : Turns members count served count')
    (hi : i ∈ members) (hbound : count i ≤ bound) (hlen : (bound + 1) * members.card ≤ served.length) :
    i ∈ served := by
  refine h.mem_of_backlog_lt hi ?_
  have hle := backlog_le hi hbound
  have hpos : 0 < members.card := Finset.card_pos.mpr ⟨i, hi⟩
  have hmul : (members.card - 1) * (bound + 1) + (bound + 1) = (bound + 1) * members.card := by
    rw [← Nat.succ_mul, Nat.mul_comm]
    congr 1
    omega
  omega

end Countdown
