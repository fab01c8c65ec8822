import UcxArinc.Implementation.Coroutine
import Mathlib.Algebra.Group.Nat.Defs
import Mathlib.Data.List.Induction

set_option autoImplicit false

/-! # Fairness of coroutine groups

A call of the scheduler goes along the list until a counter reaches zero, so a coroutine only sees the calls
in which none in front of it has run. One with a priority of at least 2 lets every other call through, and
the coroutine at place `i` runs within `2 ^ i` times its priority. One with priority 1 runs in every call it
sees and shuts out all behind it. -/

namespace UcxArinc

variable {cr cr' : Ccb} {crlist rest : List Ccb} {i calls : Nat}

/-- A counter of a coroutine with a priority is between 1 and that priority. -/
def Ccb.Counting (cr : Ccb) : Prop :=
  1 ≤ cr.priority.toNat → 1 ≤ cr.pcounter.toNat ∧ cr.pcounter.toNat ≤ cr.priority.toNat

/-- The group is fair: after any calls that have made a group of these priorities, so many calls in a row
    run every coroutine of the group. -/
def Fair (priorities : List UInt8) : Prop :=
  ∃ bound, ∀ before, (groupAfter before).map Ccb.priority = priorities →
    ∀ i < priorities.length, i ∈ (scheduleCalls bound (groupAfter before)).2

/-! ## One block -/

/-- A block either counts down or runs. -/
theorem crTrysched_cases (cr : Ccb) :
    (cr.pcounter.toNat = 1 ∧ crTrysched cr = ({ cr with pcounter := cr.priority }, true))
      ∨ cr.pcounter.toNat ≠ 1 ∧ crTrysched cr = ({ cr with pcounter := cr.pcounter - 1 }, false) := by
  have hone : cr.pcounter - 1 = 0 ↔ cr.pcounter.toNat = 1 := by
    rw [← UInt8.toNat_inj, UInt8.toNat_sub]
    have hlt := cr.pcounter.toNat_lt
    have hzero : (0 : UInt8).toNat = 0 := rfl
    have hunit : (1 : UInt8).toNat = 1 := rfl
    omega
  unfold crTrysched
  dsimp only
  by_cases h : cr.pcounter.toNat = 1
  · exact Or.inl ⟨h, if_pos (hone.mpr h)⟩
  · exact Or.inr ⟨h, if_neg fun hzero => h (hone.mp hzero)⟩

theorem Ccb.Counting.trysched (h : cr.Counting) : (crTrysched cr).1.Counting := by
  rcases crTrysched_cases cr with ⟨-, heq⟩ | ⟨hne, heq⟩
  · rw [heq]
    exact fun hpos => ⟨hpos, Nat.le_refl _⟩
  · rw [heq]
    intro hpos
    obtain ⟨hlow, hhigh⟩ := h hpos
    have hsub : (cr.pcounter - 1).toNat = cr.pcounter.toNat - 1 := UInt8.toNat_sub_of_le _ _ (by
      rw [UInt8.le_iff_toNat_le]
      exact hlow)
    dsimp only at hpos ⊢
    omega

theorem ucxCrSchedule_run (h : crTrysched cr = (cr', true)) :
    ucxCrSchedule (cr :: rest) = (cr' :: rest, [0]) := by
  rw [ucxCrSchedule, h]

theorem ucxCrSchedule_pass (h : crTrysched cr = (cr', false)) :
    ucxCrSchedule (cr :: rest)
      = (cr' :: (ucxCrSchedule rest).1, (ucxCrSchedule rest).2.map (· + 1)) := by
  rw [ucxCrSchedule, h]

theorem mem_scheduleCalls_succ :
    i ∈ (scheduleCalls (calls + 1) crlist).2
      ↔ i ∈ (ucxCrSchedule crlist).2 ∨ i ∈ (scheduleCalls calls (ucxCrSchedule crlist).1).2 := by
  rw [scheduleCalls]
  exact List.mem_append

/-- One call runs one coroutine at most. -/
theorem ucxCrSchedule_length (crlist : List Ccb) : (ucxCrSchedule crlist).2.length ≤ 1 := by
  induction crlist with
  | nil => exact Nat.zero_le 1
  | cons cr rest ih =>
      rcases crTrysched_cases cr with ⟨-, heq⟩ | ⟨-, heq⟩
      · rw [ucxCrSchedule_run heq]
        exact Nat.le_refl 1
      · rw [ucxCrSchedule_pass heq, List.length_map]
        exact ih

/-! ## The calls that reach the rest of the list -/

/-- How many of some calls in a row a block lets through. -/
def passes : Nat → Ccb → Nat
  | 0, _ => 0
  | calls + 1, cr => (if (crTrysched cr).2 then 0 else 1) + passes calls (crTrysched cr).1

/-- The rest of the list sees the calls the first block lets through, and no others. -/
theorem mem_scheduleCalls_cons :
    i + 1 ∈ (scheduleCalls calls (cr :: rest)).2 ↔ i ∈ (scheduleCalls (passes calls cr) rest).2 := by
  induction calls generalizing cr rest with
  | zero => simp [scheduleCalls, passes]
  | succ calls ih =>
      rw [mem_scheduleCalls_succ, passes]
      rcases crTrysched_cases cr with ⟨-, heq⟩ | ⟨-, heq⟩
      · rw [ucxCrSchedule_run heq, heq, if_pos rfl, Nat.zero_add, ih]
        simp
      · rw [ucxCrSchedule_pass heq, heq, if_neg Bool.false_ne_true, Nat.one_add, mem_scheduleCalls_succ, ih]
        simp

/-- More calls run no fewer coroutines. -/
theorem mem_scheduleCalls_mono {calls' : Nat} (hle : calls ≤ calls')
    (hmem : i ∈ (scheduleCalls calls crlist).2) : i ∈ (scheduleCalls calls' crlist).2 := by
  induction calls generalizing calls' crlist with
  | zero => simp [scheduleCalls] at hmem
  | succ calls ih =>
      obtain ⟨n, rfl⟩ : ∃ n, calls' = n + 1 := ⟨calls' - 1, by omega⟩
      rw [mem_scheduleCalls_succ] at hmem ⊢
      exact hmem.imp_right fun hlater => ih (by omega) hlater

/-- A block with a priority of at least 2 lets every other call through. -/
theorem passes_ge (hcounting : cr.Counting) (hpriority : 2 ≤ cr.priority.toNat) (calls : Nat) :
    calls ≤ 2 * passes calls cr + if cr.pcounter.toNat = 1 then 1 else 0 := by
  induction calls generalizing cr with
  | zero => exact Nat.zero_le _
  | succ calls ih =>
      have hnext := hcounting.trysched
      rw [passes]
      rcases crTrysched_cases cr with ⟨hone, heq⟩ | ⟨hne, heq⟩
      · rw [heq] at hnext ⊢
        have hrest := ih hnext hpriority
        rw [if_pos hone, if_pos rfl]
        rw [if_neg (by dsimp only; omega)] at hrest
        omega
      · rw [heq] at hnext ⊢
        have hrest := ih hnext hpriority
        rw [if_neg hne, if_neg Bool.false_ne_true]
        split at hrest <;> omega

/-- A block with priority 1 lets no call through. -/
theorem passes_eq_zero (hcounter : cr.pcounter.toNat = 1) (hpriority : cr.priority.toNat = 1) :
    passes calls cr = 0 := by
  induction calls generalizing cr with
  | zero => rfl
  | succ calls ih =>
      rcases crTrysched_cases cr with ⟨-, heq⟩ | ⟨hne, -⟩
      · rw [passes, heq, if_pos rfl, Nat.zero_add]
        exact ih hpriority hpriority
      · exact absurd hcounter hne

/-- The first coroutine runs in as many calls as its counter says. -/
theorem head_runs (hpos : 1 ≤ cr.pcounter.toNat) (hle : cr.pcounter.toNat ≤ calls) :
    0 ∈ (scheduleCalls calls (cr :: rest)).2 := by
  induction calls generalizing cr rest with
  | zero => omega
  | succ calls ih =>
      rw [mem_scheduleCalls_succ]
      rcases crTrysched_cases cr with ⟨-, heq⟩ | ⟨hne, heq⟩
      · rw [ucxCrSchedule_run heq]
        exact Or.inl List.mem_cons_self
      · right
        have hsub : (cr.pcounter - 1).toNat = cr.pcounter.toNat - 1 := UInt8.toNat_sub_of_le _ _ (by
          rw [UInt8.le_iff_toNat_le]
          exact hpos)
        rw [ucxCrSchedule_pass heq]
        refine ih ?_ ?_
        · dsimp only
          omega
        · dsimp only
          omega

/-! ## Groups -/

/-- With priorities of at least 2 in front of it, a coroutine is run within its priority doubled once for
    each of those. -/
theorem coroutine_runs (hcounting : ∀ cr ∈ crlist, cr.Counting) (hi : i < crlist.length)
    (hpos : 1 ≤ crlist[i].priority.toNat) (hfront : ∀ cr ∈ crlist.take i, 2 ≤ cr.priority.toNat) :
    i ∈ (scheduleCalls (2 ^ i * crlist[i].priority.toNat) crlist).2 := by
  induction crlist generalizing i with
  | nil => exact absurd hi (Nat.not_lt_zero i)
  | cons cr rest ih =>
      have hcr := hcounting cr List.mem_cons_self
      cases i with
      | zero =>
          obtain ⟨hlow, hhigh⟩ := hcr hpos
          exact head_runs hlow (by simpa using hhigh)
      | succ i =>
          have hrest := ih (fun c hc => hcounting c (List.mem_cons_of_mem _ hc)) (Nat.lt_of_succ_lt_succ hi) hpos
            (fun c hc => hfront c (List.mem_cons_of_mem _ hc))
          rw [mem_scheduleCalls_cons]
          refine mem_scheduleCalls_mono ?_ hrest
          have hpass := passes_ge hcr (hfront cr List.mem_cons_self) (2 ^ (i + 1) * (cr :: rest)[i + 1].priority.toNat)
          rw [List.getElem_cons_succ, Nat.pow_succ, Nat.mul_assoc, Nat.mul_left_comm] at hpass ⊢
          split at hpass <;> omega

/-- Behind a coroutine of priority 1 none is ever run. -/
theorem shut_out (hi : i < crlist.length) (hcounter : crlist[i].pcounter.toNat = 1)
    (hpriority : crlist[i].priority.toNat = 1) : i + 1 ∉ (scheduleCalls calls crlist).2 := by
  induction crlist generalizing i calls with
  | nil => exact absurd hi (Nat.not_lt_zero i)
  | cons cr rest ih =>
      rw [mem_scheduleCalls_cons]
      cases i with
      | zero =>
          have hnone : passes calls cr = 0 := passes_eq_zero hcounter hpriority
          rw [hnone]
          exact List.not_mem_nil
      | succ i => exact ih (Nat.lt_of_succ_lt_succ hi) hcounter hpriority

theorem ucxCrSchedule_counting (hcounting : ∀ cr ∈ crlist, cr.Counting) :
    ∀ cr ∈ (ucxCrSchedule crlist).1, cr.Counting := by
  induction crlist with
  | nil => exact hcounting
  | cons cr rest ih =>
      have hcr := (hcounting cr List.mem_cons_self).trysched
      have hrest : ∀ c ∈ rest, c.Counting := fun c hc => hcounting c (List.mem_cons_of_mem _ hc)
      rcases crTrysched_cases cr with ⟨-, heq⟩ | ⟨-, heq⟩
      · rw [heq] at hcr
        rw [ucxCrSchedule_run heq]
        exact List.forall_mem_cons.mpr ⟨hcr, hrest⟩
      · rw [heq] at hcr
        rw [ucxCrSchedule_pass heq]
        exact List.forall_mem_cons.mpr ⟨hcr, ih hrest⟩

/-- Whatever has been added and scheduled, all counters are between 1 and the priority. -/
theorem groupAfter_counting (before : List GroupCall) : ∀ cr ∈ groupAfter before, cr.Counting := by
  induction before using List.reverseRecOn with
  | nil => exact fun cr hcr => absurd hcr List.not_mem_nil
  | append_singleton before call ih =>
      unfold groupAfter at ih ⊢
      rw [List.foldl_append]
      cases call with
      | add corotine priority =>
          intro cr hcr
          rcases List.mem_append.mp hcr with hold | hnew
          · exact ih cr hold
          · rw [List.mem_singleton.mp hnew]
            exact fun hpos => ⟨hpos, Nat.le_refl _⟩
      | schedule => exact ucxCrSchedule_counting ih

/-- Adding one coroutine after the other. -/
theorem groupAfter_adds (priorities : List UInt8) :
    groupAfter (priorities.map (.add 0)) = priorities.map fun priority => ⟨0, priority, priority⟩ := by
  induction priorities using List.reverseRecOn with
  | nil => rfl
  | append_singleton priorities priority ih =>
      unfold groupAfter at ih ⊢
      rw [List.map_append, List.foldl_append, ih, List.map_append]
      rfl

/-- A group with priorities of at least 2, the last one apart, is fair. -/
theorem fair_of_two_le {priorities : List UInt8} (hpos : ∀ p ∈ priorities, 1 ≤ p.toNat)
    (htwo : ∀ p ∈ priorities.dropLast, 2 ≤ p.toNat) : Fair priorities := by
  refine ⟨2 ^ priorities.length * 2 ^ 8, fun before hbefore i hi => ?_⟩
  generalize hgroup : groupAfter before = crlist at hbefore ⊢
  have hcounting := groupAfter_counting before
  rw [hgroup] at hcounting
  subst hbefore
  rw [List.length_map] at hi ⊢
  have hpriority : 1 ≤ crlist[i].priority.toNat :=
    hpos _ (List.mem_map_of_mem (List.getElem_mem hi))
  have hfront : ∀ cr ∈ crlist.take i, 2 ≤ cr.priority.toNat := by
    intro cr hcr
    refine htwo _ ?_
    rw [← List.map_dropLast]
    refine List.mem_map_of_mem ?_
    rw [List.dropLast_eq_take]
    exact (List.take_subset_take_left _ (by omega)) hcr
  refine mem_scheduleCalls_mono ?_ (coroutine_runs hcounting hi hpriority hfront)
  exact Nat.mul_le_mul (Nat.pow_le_pow_right (by omega) (Nat.le_of_lt hi))
    (Nat.le_of_lt crlist[i].priority.toNat_lt)

/-- A group with a coroutine of priority 1 before its last is not. -/
theorem not_fair {priorities : List UInt8} (hi : i + 1 < priorities.length) (hone : priorities[i].toNat = 1) :
    ¬ Fair priorities := by
  rintro ⟨bound, hruns⟩
  have hgroup := groupAfter_adds priorities
  have hpriorities : (groupAfter (priorities.map (.add 0))).map Ccb.priority = priorities := by
    rw [hgroup, List.map_map]
    exact List.map_id priorities
  refine shut_out (i := i) ?_ ?_ ?_ (hruns _ hpriorities (i + 1) hi)
  · rw [hgroup, List.length_map]
    omega
  · simp only [hgroup, List.getElem_map]
    exact hone
  · simp only [hgroup, List.getElem_map]
    exact hone

/-- A call runs at most one coroutine, and a group is fair exactly if none of its coroutines but the last
    has priority 1. -/
theorem group_fair_iff (priorities : List UInt8) (hpos : ∀ p ∈ priorities, 1 ≤ p.toNat) :
    (Fair priorities ∧ ∀ crlist, (ucxCrSchedule crlist).2.length ≤ 1)
      ↔ ∀ p ∈ priorities.dropLast, 2 ≤ p.toNat := by
  constructor
  · rintro ⟨hfair, -⟩ p hp
    by_contra hlt
    obtain ⟨i, hi, rfl⟩ := List.getElem_of_mem hp
    have hlow := hpos _ (List.dropLast_subset _ hp)
    rw [List.length_dropLast] at hi
    refine not_fair (i := i) (by omega) ?_ hfair
    rw [List.getElem_dropLast] at hlow hlt
    omega
  · intro htwo
    exact ⟨fair_of_two_le hpos htwo, ucxCrSchedule_length⟩

theorem group_fair_iff_three :
    (Fair [2, 3, 1] ∧ ∀ crlist, (ucxCrSchedule crlist).2.length ≤ 1)
      ↔ ∀ p ∈ ([2, 3, 1] : List UInt8).dropLast, 2 ≤ p.toNat :=
  group_fair_iff [2, 3, 1] (by simp)

/-- The second coroutine of two is never run if the first has priority 1. -/
theorem unfair_pair : ¬ Fair [1, 5] := not_fair (i := 0) (by decide) rfl

end UcxArinc
