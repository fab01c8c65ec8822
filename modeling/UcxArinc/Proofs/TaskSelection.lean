import UcxArinc.Implementation.TaskScheduler
import UcxArinc.Library.Transition

set_option autoImplicit false

/-! # Which task the native scheduler selects

`krnl_schedule` compares the tasks with the first one of the list, runnable or not. So it finds the
runnable task whose current priority is least exactly when one of them is no worse than the first task;
otherwise it panics. -/

namespace UcxArinc

/-! ## The two bytes of a priority -/

namespace Tcb

theorem low_toNat (task : Tcb) : task.low.toNat = task.priority.toNat % 256 := by
  unfold low
  rw [UInt16.toNat_and]
  exact Nat.and_two_pow_sub_one_eq_mod _ 8

theorem high_toNat (task : Tcb) : task.high.toNat = task.priority.toNat / 256 := by
  have hlt := task.priority.toNat_lt
  have hmod : task.priority.toNat >>> 8 &&& 255 = task.priority.toNat >>> 8 % 256 :=
    Nat.and_two_pow_sub_one_eq_mod _ 8
  unfold high
  rw [UInt16.toNat_and, UInt16.toNat_shiftRight]
  simp only [UInt16.reduceToNat, Nat.reduceMod]
  rw [hmod, Nat.shiftRight_eq_div_pow]
  omega

theorem low_lt (task : Tcb) : task.low.toNat < 256 := by
  rw [low_toNat]
  omega

theorem runnable_iff {task : Tcb} : task.runnable = true ↔ task.state = .ready ∧ task.rtPrio = 0 := by
  simp [runnable]

end Tcb

namespace TaskKcb

/-- Only the low byte of the priority has changed, by `m`. -/
structure PaidBy (m : Nat) (task task' : Tcb) : Prop where
  same : task' = { task with priority := task'.priority }
  high : task'.high = task.high
  low : task'.low.toNat + m = task.low.toNat

/-- No borrow reaches the high byte while the amount is no more than the low byte. -/
theorem pay_spec {task select : Tcb} (h : task.runnable = true) (hle : select.low ≤ task.low) :
    PaidBy select.low.toNat task (pay select.priority task) := by
  have hle' := UInt16.le_iff_toNat_le.mp hle
  have hsub : select.low ≤ task.priority := by
    rw [UInt16.le_iff_toNat_le]
    have := task.low_toNat
    omega
  have hpriority : (pay select.priority task).priority.toNat
      = task.priority.toNat - select.low.toNat := by
    unfold pay
    rw [if_pos h]
    exact UInt16.toNat_sub_of_le _ _ hsub
  have hlow := task.low_toNat
  refine ⟨?_, ?_, ?_⟩
  · unfold pay
    rw [if_pos h]
  · rw [← UInt16.toNat_inj, Tcb.high_toNat, Tcb.high_toNat, hpriority]
    omega
  · rw [Tcb.low_toNat, hpriority]
    omega

/-- A low byte of 0 is reloaded from the high byte. -/
theorem reload_spec {task : Tcb} (hlow : task.low.toNat = 0) :
    (reload task).low = task.high ∧ (reload task).high = task.high := by
  have hlt := task.priority.toNat_lt
  have hhigh := task.high_toNat
  have hpriority : (reload task).priority.toNat = 2 ^ 8 * task.high.toNat + task.high.toNat := by
    have hbytes : task.priority.toNat = 2 ^ 8 * task.high.toNat := by
      have := task.low_toNat
      omega
    unfold reload
    rw [UInt16.toNat_or, hbytes]
    exact (Nat.two_pow_add_eq_or_of_lt (by omega) _).symm
  rw [← UInt16.toNat_inj, ← UInt16.toNat_inj, Tcb.low_toNat, Tcb.high_toNat (reload task), hpriority]
  omega

/-! ## The scan -/

/-- Either nothing in the rest is runnable and no worse than the task selected so far, or the scan ends at
    a least runnable task of the rest. -/
theorem scan_spec (i : Nat) (rest : List Tcb) (select : Nat × Tcb) :
    (scan i rest select = select ∧ ∀ u ∈ rest, u.runnable = true → select.2.low < u.low)
      ∨ ∃ k task, rest[k]? = some task ∧ scan i rest select = (i + k, task) ∧ task.runnable = true
        ∧ task.low ≤ select.2.low ∧ ∀ u ∈ rest, u.runnable = true → task.low ≤ u.low := by
  induction rest generalizing i select with
  | nil => exact Or.inl ⟨rfl, by simp⟩
  | cons task rest ih =>
      simp only [scan]
      by_cases htake : task.low ≤ select.2.low ∧ task.runnable = true
      · rw [if_pos htake]
        right
        rcases ih (i + 1) (i, task) with ⟨hscan, hnone⟩ | ⟨k, task', hget, hscan, hrun, hle, hleast⟩
        · refine ⟨0, task, by simp, by simpa using hscan, htake.2, htake.1, ?_⟩
          intro u hu hurun
          rcases List.mem_cons.mp hu with rfl | hu
          · exact UInt16.le_refl _
          · exact UInt16.le_of_lt (hnone u hu hurun)
        · refine ⟨k + 1, task', by simpa using hget, ?_, hrun, UInt16.le_trans hle htake.1, ?_⟩
          · rw [hscan]
            simp only [Prod.mk.injEq, and_true]
            omega
          · intro u hu hurun
            rcases List.mem_cons.mp hu with rfl | hu
            · exact hle
            · exact hleast u hu hurun
      · rw [if_neg htake]
        have hskip : task.runnable = true → select.2.low < task.low := by
          intro hrun
          by_contra hlt
          exact htake ⟨UInt16.not_lt.mp hlt, hrun⟩
        rcases ih (i + 1) select with ⟨hscan, hnone⟩ | ⟨k, task', hget, hscan, hrun, hle, hleast⟩
        · refine Or.inl ⟨hscan, ?_⟩
          intro u hu hurun
          rcases List.mem_cons.mp hu with rfl | hu
          · exact hskip hurun
          · exact hnone u hu hurun
        · refine Or.inr ⟨k + 1, task', by simpa using hget, ?_, hrun, hle, ?_⟩
          · rw [hscan]
            simp only [Prod.mk.injEq, and_true]
            omega
          · intro u hu hurun
            rcases List.mem_cons.mp hu with rfl | hu
            · exact UInt16.le_trans hle (UInt16.le_of_lt (hskip hurun))
            · exact hleast u hu hurun

/-! ## The selected task -/

variable {s s' : TaskKcb} {id : UInt16}

theorem first_mem (s : TaskKcb) : s.first ∈ s.tasks := List.get_mem _ _

/-- If some runnable task is no worse than the first one, a least runnable task is selected. -/
theorem select_spec (h : ∃ u ∈ s.tasks, u.runnable = true ∧ u.low ≤ s.first.low) :
    s.tasks[s.select.1]? = some s.select.2 ∧ s.select.2.runnable = true
      ∧ ∀ u ∈ s.tasks, u.runnable = true → s.select.2.low ≤ u.low := by
  obtain ⟨u, hu, hrun, hle⟩ := h
  rcases scan_spec 0 s.tasks (0, s.first) with ⟨-, hnone⟩ | ⟨k, task, hget, hscan, htask, -, hleast⟩
  · exact absurd (hnone u hu hrun) (UInt16.not_lt.mpr hle)
  · unfold select
    rw [hscan]
    exact ⟨by simpa using hget, htask, hleast⟩

/-- If none is, the first task stays selected, which is not runnable itself. -/
theorem select_eq_first (h : ∀ u ∈ s.tasks, u.runnable = true → s.first.low < u.low) :
    s.select.2 = s.first ∧ s.first.runnable = false := by
  have hfirst : s.first.runnable = false := by
    by_contra hrun
    exact UInt16.lt_irrefl _ (h s.first s.first_mem (by simpa using hrun))
  rcases scan_spec 0 s.tasks (0, s.first) with ⟨hscan, -⟩ | ⟨k, task, hget, -, hrun, hle, -⟩
  · unfold select
    rw [hscan]
    exact ⟨rfl, hfirst⟩
  · exact absurd (h task (List.mem_of_getElem? hget) hrun) (UInt16.not_lt.mpr hle)

/-- `krnl_schedule` panics exactly if every runnable task is worse than the first one. -/
theorem krnlSchedule_eq_none :
    s.krnlSchedule = none
      ↔ ∀ u ∈ s.preempt.tasks, u.runnable = true → s.preempt.first.low < u.low := by
  unfold krnlSchedule
  dsimp only
  constructor
  · intro h u hu hrun
    by_contra hlt
    have hselect := (select_spec ⟨u, hu, hrun, UInt16.not_lt.mp hlt⟩).2.1
    obtain ⟨hready, hrt⟩ := Tcb.runnable_iff.mp hselect
    rw [if_neg (by simp [hready, hrt])] at h
    simp at h
  · intro h
    obtain ⟨hselect, hfirst⟩ := select_eq_first h
    refine if_pos ?_
    rw [hselect]
    by_contra hc
    have hrun : s.preempt.first.runnable = true := Tcb.runnable_iff.mpr (by simpa using hc)
    simp [hrun] at hfirst

/-- What a call that does not panic does, from the state `s` in which the current task has been
    preempted: a least runnable task is selected and runs, with its low byte reloaded; the other runnable
    tasks pay its low byte and the remaining tasks are left alone. -/
structure Selects (s : TaskKcb) (id : UInt16) (s' : TaskKcb) : Prop where
  length : s'.tasks.length = s.tasks.length
  selected : ∃ task task', s.tasks[s'.taskCurrent]? = some task ∧ s'.tasks[s'.taskCurrent]? = some task'
    ∧ task.runnable = true ∧ (∀ u ∈ s.tasks, u.runnable = true → task.low ≤ u.low) ∧ task.id = id
    ∧ task' = { task with state := .running, priority := task'.priority }
    ∧ task'.high = task.high ∧ task'.low = task.high
    ∧ ∀ i u u', i ≠ s'.taskCurrent → s.tasks[i]? = some u → s'.tasks[i]? = some u' →
      if u.runnable = true then PaidBy task.low.toNat u u' else u' = u
  onlyRunning : ∀ i u', s'.tasks[i]? = some u' → (u'.state = .running ↔ i = s'.taskCurrent)

theorem pay_of_not_runnable {task : Tcb} (priority : UInt16) (h : ¬ task.runnable = true) :
    pay priority task = task := if_neg h

/-- The effect of a call, given the runnable task it selects. -/
theorem switchTo_selects (hnone : ∀ (i : Nat) (h : i < s.tasks.length), s.tasks[i].state ≠ .running)
    (h : ∃ u ∈ s.tasks, u.runnable = true ∧ u.low ≤ s.first.low) :
    s.Selects s.select.2.id (s.switchTo hnone) := by
  obtain ⟨hget, hrun, hleast⟩ := select_spec h
  have hpaid := pay_spec hrun (UInt16.le_refl _)
  have hlow : (pay s.select.2.priority s.select.2).low.toNat = 0 := by
    have := hpaid.low
    omega
  have hreload := reload_spec hlow
  have hother : ∀ i, i ≠ s.select.1 →
      (s.switchTo hnone).tasks[i]? = s.tasks[i]?.map (pay s.select.2.priority) := by
    intro i hi
    unfold switchTo
    simp [Ne.symm hi]
  have hself : (s.switchTo hnone).tasks[s.select.1]?
      = some (reload (pay s.select.2.priority s.select.2)) := by
    unfold switchTo
    simp [hget]
  refine ⟨by simp [switchTo], ⟨s.select.2, _, hget, hself, hrun, hleast, rfl, ?_, ?_, ?_, ?_⟩, ?_⟩
  · rw [hpaid.same]
    rfl
  · rw [hreload.2, hpaid.high]
  · rw [hreload.1, hpaid.high]
  · intro i u u' hi hu hu'
    rw [hother i hi, hu, Option.map_some, Option.some.injEq] at hu'
    subst hu'
    split
    · next hurun => exact pay_spec hurun (hleast u (List.mem_of_getElem? hu) hurun)
    · next hurun => exact pay_of_not_runnable _ hurun
  · intro i u' hu'
    obtain ⟨hi, rfl⟩ := List.getElem?_eq_some_iff.mp hu'
    constructor
    · exact (s.switchTo hnone).running_eq i hi
    · intro heq
      have hget' : (s.switchTo hnone).tasks[i]?
          = some (reload (pay s.select.2.priority s.select.2)) := by
        rw [heq]
        exact hself
      rw [List.getElem?_eq_getElem hi, Option.some.injEq] at hget'
      rw [hget']
      rfl

/-- The call selects a least runnable task; it may panic only if none is runnable. -/
def SchedulesLeast (s : TaskKcb) : Prop :=
  match s.krnlSchedule with
  | none => ∀ task ∈ s.preempt.tasks, task.runnable = false
  | some (s', id) => s.preempt.Selects id s'

/-- A call schedules a least runnable task exactly if some runnable task is no worse than the first task of
    the list, or none is runnable. -/
theorem krnlSchedule_least_iff (s : TaskKcb) :
    s.SchedulesLeast ↔ ((∃ u ∈ s.preempt.tasks, u.runnable = true) →
      ∃ u ∈ s.preempt.tasks, u.runnable = true ∧ u.low ≤ s.preempt.first.low) := by
  unfold SchedulesLeast
  by_cases hfound : ∃ u ∈ s.preempt.tasks, u.runnable = true ∧ u.low ≤ s.preempt.first.low
  · have hselects := switchTo_selects s.preempt_not_running hfound
    obtain ⟨hready, hrt⟩ := Tcb.runnable_iff.mp (select_spec hfound).2.1
    have hcall : s.krnlSchedule
        = some (s.preempt.switchTo s.preempt_not_running, s.preempt.select.2.id) :=
      if_neg (by simp [hready, hrt])
    rw [hcall]
    exact ⟨fun _ _ => hfound, fun _ => hselects⟩
  · have hcall : s.krnlSchedule = none := by
      rw [krnlSchedule_eq_none]
      intro u hu hrun
      by_contra hlt
      exact hfound ⟨u, hu, hrun, UInt16.not_lt.mp hlt⟩
    rw [hcall]
    constructor
    · rintro hidle ⟨u, hu, hrun⟩
      simp [hidle u hu] at hrun
    · intro h task htask
      by_contra hrun
      exact hfound (h ⟨task, htask, by simpa using hrun⟩)

/-- Two tasks, of which the second runs and has suspended the first while its low byte was 0. -/
def suspendedFirst : TaskKcb where
  tasks := [⟨0, .suspended, 0x1f00, 0, 0⟩, ⟨1, .running, 0x1f1f, 0, 0⟩]
  taskCurrent := 1
  idNext := 2
  current_lt := by decide
  running_eq := by decide

/-- When it yields, it is runnable, and the kernel panics. -/
theorem suspended_first_panics :
    Transition.run step boot [.spawn, .yield, .suspend 0] = some suspendedFirst
      ∧ ¬ suspendedFirst.SchedulesLeast := by
  refine ⟨rfl, fun h => ?_⟩
  have hcall : suspendedFirst.krnlSchedule = none := rfl
  have hrun : ∃ u ∈ suspendedFirst.preempt.tasks, u.runnable = true := by decide
  obtain ⟨u, hu, hrun⟩ := hrun
  unfold SchedulesLeast at h
  rw [hcall] at h
  simp [h u hu] at hrun

end TaskKcb

end UcxArinc
