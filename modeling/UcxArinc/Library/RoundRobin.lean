import Mathlib.Data.List.Rotate
import Mathlib.Tactic.Common

set_option autoImplicit false

/-! # Round-robin queues

A round-robin queue serves its head and puts it back at the end, so after `k` turns it is the first
queue rotated `k` times. Whoever it has served, in the order of service, goes round the queue: between
two services of one of its members each of the others is served exactly once. -/

namespace RoundRobin

variable {α : Type*} {queue served : List α}

/-- `served` goes round `queue`. -/
def GoesRound (queue served : List α) : Prop :=
  ∀ i < served.length, served[i]? = queue[i % queue.length]?

theorem GoesRound.nil (queue : List α) : GoesRound queue [] := by
  intro i hi
  simp at hi

/-- The head of the queue is served next. -/
theorem GoesRound.snoc (h : GoesRound queue served) {a : α}
    (ha : (queue.rotate served.length).head? = some a) : GoesRound queue (served ++ [a]) := by
  intro i hi
  rcases Nat.lt_or_ge i served.length with hlt | hge
  · rw [List.getElem?_append_left hlt]
    exact h i hlt
  · obtain rfl : i = served.length := by
      simp at hi
      omega
    have hpos : 0 < queue.length := by
      rw [← List.length_rotate queue served.length]
      refine List.length_pos_iff.mpr fun hnil => ?_
      simp [hnil] at ha
    rw [List.getElem?_concat_length, ← ha, List.head?_eq_getElem?, List.getElem?_rotate hpos,
      Nat.zero_add]

/-- The same member is served exactly in turns that are whole rounds apart. -/
theorem GoesRound.eq_iff_mod (h : GoesRound queue served) (hnodup : queue.Nodup) (hne : queue ≠ [])
    {i j : ℕ} (hi : i < served.length) (hj : j < served.length) :
    served[i]? = served[j]? ↔ i % queue.length = j % queue.length := by
  have hpos := List.length_pos_iff.mpr hne
  rw [h i hi, h j hj]
  constructor
  · intro heq
    rw [List.getElem?_eq_getElem (Nat.mod_lt i hpos), List.getElem?_eq_getElem (Nat.mod_lt j hpos),
      Option.some.injEq] at heq
    exact (List.Nodup.getElem_inj_iff hnodup).mp heq
  · intro heq
    rw [heq]

/-- Two services of one member, with none between them, are one round apart. -/
theorem GoesRound.next_service (h : GoesRound queue served) (hnodup : queue.Nodup) (hne : queue ≠ [])
    {i j : ℕ} (hij : i < j) (hj : j < served.length) (hsame : served[i]? = served[j]?)
    (hnone : ∀ k, i < k → k < j → served[k]? ≠ served[i]?) : j = i + queue.length := by
  have hpos := List.length_pos_iff.mpr hne
  have hmod := (h.eq_iff_mod hnodup hne (hij.trans hj) hj).mp hsame
  have hle : i + queue.length ≤ j := by
    have hdvd := Nat.dvd_of_mod_eq_zero (Nat.sub_mod_eq_zero_of_mod_eq hmod.symm)
    have := Nat.le_of_dvd (by omega) hdvd
    omega
  by_contra hdiff
  have hlt : i + queue.length < j := by omega
  refine hnone (i + queue.length) (by omega) hlt ?_
  rw [h.eq_iff_mod hnodup hne (hlt.trans hj) (hij.trans hj), Nat.add_mod_right]

/-- Each other remainder comes exactly once before that of `i` comes again. -/
theorem existsUnique_mod {n i m : ℕ} (hm : m < n) (hne : i % n ≠ m) :
    ∃! k, i < k ∧ k < i + n ∧ k % n = m := by
  have hlt := Nat.mod_lt i (Nat.zero_lt_of_lt hm)
  have hmod : ∀ d, i % n + d = m ∨ i % n + d = m + n → (i + d) % n = m := by
    intro d hd
    rw [Nat.add_mod, ← Nat.mod_add_mod, Nat.mod_mod, Nat.add_mod_mod]
    rcases hd with hd | hd
    · rw [hd, Nat.mod_eq_of_lt hm]
    · rw [hd, Nat.add_mod_right, Nat.mod_eq_of_lt hm]
  have hclose : ∀ k k', k % n = k' % n → k ≤ k' → k' < k + n → k = k' := by
    intro k k' hkk hle hlt
    have hzero := Nat.sub_mod_eq_zero_of_mod_eq hkk.symm
    rw [Nat.mod_eq_of_lt (by omega)] at hzero
    omega
  obtain ⟨d, hd, hpos, hdn⟩ : ∃ d, (i % n + d = m ∨ i % n + d = m + n) ∧ 0 < d ∧ d < n := by
    rcases Nat.lt_or_gt_of_ne hne with h | h
    · exact ⟨m - i % n, Or.inl (by omega), by omega, by omega⟩
    · exact ⟨m + n - i % n, Or.inr (by omega), by omega, by omega⟩
  refine ⟨i + d, ⟨by omega, by omega, hmod d hd⟩, ?_⟩
  rintro k ⟨hik, hkn, hk⟩
  have hsame : k % n = (i + d) % n := hk.trans (hmod d hd).symm
  rcases Nat.le_total k (i + d) with hle | hle
  · exact hclose k (i + d) hsame hle (by omega)
  · exact (hclose (i + d) k hsame.symm hle (by omega)).symm

/-- Fairness: between two services of one member each other member is served exactly once. -/
theorem GoesRound.once_between (h : GoesRound queue served) (hnodup : queue.Nodup) {i j : ℕ} {a b : α}
    (hij : i < j) (hi : served[i]? = some a) (hj : served[j]? = some a)
    (hnone : ∀ k, i < k → k < j → served[k]? ≠ some a) (hb : b ∈ queue) (hab : b ≠ a) :
    ∃! k, i < k ∧ k < j ∧ served[k]? = some b := by
  have hne : queue ≠ [] := List.ne_nil_of_mem hb
  have hpos := List.length_pos_iff.mpr hne
  obtain ⟨hjlt, -⟩ := List.getElem?_eq_some_iff.mp hj
  have hround := h.next_service hnodup hne hij hjlt (hi.trans hj.symm) fun k hik hkj => by
    rw [hi]
    exact hnone k hik hkj
  obtain ⟨m, hm, hmb⟩ := List.getElem_of_mem hb
  have hturn : ∀ k, k < served.length → (served[k]? = some b ↔ k % queue.length = m) := by
    intro k hk
    rw [h k hk, List.getElem?_eq_getElem (Nat.mod_lt k hpos), Option.some.injEq, ← hmb,
      List.Nodup.getElem_inj_iff hnodup]
  have hother : i % queue.length ≠ m := by
    intro him
    have := (hturn i (hij.trans hjlt)).mpr him
    rw [hi] at this
    exact hab (Option.some.inj this).symm
  obtain ⟨k, ⟨hik, hkj, hk⟩, hunique⟩ := existsUnique_mod hm hother
  refine ⟨k, ⟨hik, by omega, (hturn k (by omega)).mpr hk⟩, ?_⟩
  rintro k' ⟨hik', hkj', hk'⟩
  exact hunique k' ⟨hik', by omega, (hturn k' (by omega)).mp hk'⟩

end RoundRobin
