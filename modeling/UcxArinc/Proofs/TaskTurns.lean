import UcxArinc.Library.Countdown
import UcxArinc.Proofs.TaskSelection

set_option autoImplicit false

/-! # No native task starves

The current priorities of the tasks that compete for the processor are a countdown: the scheduler serves
the least one, and the others pay it. So whatever the counters are, and however ties fall, each of `n` tasks
is selected in every `256 * n` calls. -/

namespace UcxArinc

namespace TaskKcb

variable {s s' : TaskKcb} {id : UInt16}

/-- Every task is `READY` or `RUNNING`, is no real-time task and has a high priority byte of 1 or more. -/
def Competing (s : TaskKcb) : Prop :=
  ∀ task ∈ s.tasks, (task.state = .ready ∨ task.state = .running) ∧ task.rtPrio = 0 ∧ 1 ≤ task.high

instance (s : TaskKcb) : Decidable s.Competing := inferInstanceAs (Decidable (∀ task ∈ s.tasks, _))

/-- The current priorities by position. -/
def counters (s : TaskKcb) (i : Nat) : Nat := (s.tasks[i]?.map fun task => task.low.toNat).getD 0

theorem counters_eq {i : Nat} {task : Tcb} (h : s.tasks[i]? = some task) :
    s.counters i = task.low.toNat := by
  simp [counters, h]

theorem counters_le (s : TaskKcb) (i : Nat) : s.counters i ≤ 255 := by
  unfold counters
  cases h : s.tasks[i]? with
  | none => simp
  | some task =>
      have := task.low_lt
      simp only [Option.map_some, Option.getD_some]
      omega

/-- `m` calls of `krnl_schedule`, with the positions they select. -/
def schedules : Nat → TaskKcb → Option (TaskKcb × List Nat)
  | 0, s => some (s, [])
  | m + 1, s => s.krnlSchedule.bind fun r =>
    (schedules m r.1).map fun r' => (r'.1, r.1.taskCurrent :: r'.2)

/-! ## One call -/

theorem preempt_getElem? (s : TaskKcb) (i : Nat) :
    s.preempt.tasks[i]? = s.tasks[i]?.map fun task => if s.taskCurrent = i then task.preempted else task := by
  simp [preempt, modTask, List.getElem?_modify]

@[simp] theorem preempt_length (s : TaskKcb) : s.preempt.tasks.length = s.tasks.length := by
  simp [preempt, modTask]

theorem preempted_priority (task : Tcb) : task.preempted.priority = task.priority := by
  unfold Tcb.preempted
  split <;> rfl

theorem preempt_counters (s : TaskKcb) (i : Nat) : s.preempt.counters i = s.counters i := by
  unfold counters
  rw [preempt_getElem?, Option.map_map]
  congr 2
  funext task
  simp only [Function.comp_apply]
  split
  · rw [Tcb.low, preempted_priority, ← Tcb.low]
  · rfl

/-- Once the current task has been preempted, all that compete are runnable. -/
theorem Competing.preempt (h : s.Competing) :
    ∀ task ∈ s.preempt.tasks, task.runnable = true ∧ 1 ≤ task.high := by
  intro task htask
  obtain ⟨i, hi, rfl⟩ := List.getElem_of_mem htask
  have hstate := s.preempt_not_running i hi
  have hget := s.preempt_getElem? i
  rw [List.getElem?_eq_getElem hi, List.getElem?_eq_getElem (by simpa using hi), Option.map_some,
    Option.some.injEq] at hget
  have hcomp := h _ (List.getElem_mem (by simpa using hi))
  rw [hget] at hstate ⊢
  unfold Tcb.preempted at hstate ⊢
  rw [Tcb.runnable_iff]
  split_ifs at hstate ⊢ with hcur hrun
  · exact ⟨⟨rfl, hcomp.2.1⟩, hcomp.2.2⟩
  · exact ⟨⟨hcomp.1.resolve_right hrun, hcomp.2.1⟩, hcomp.2.2⟩
  · exact ⟨⟨hcomp.1.resolve_right hstate, hcomp.2.1⟩, hcomp.2.2⟩

/-- The tasks that competed still do, and the call was a turn of their countdown. -/
theorem Selects.turn (h : s.Selects id s')
    (hall : ∀ task ∈ s.tasks, task.runnable = true ∧ 1 ≤ task.high) :
    s'.Competing
      ∧ Countdown.Turn (Finset.range s.tasks.length) s.counters s'.taskCurrent s'.counters := by
  obtain ⟨task, task', hget, hget', hrun, hleast, -, hsame, hhigh, hlow, hothers⟩ := h.selected
  have hlt := s'.current_lt
  have hreload : 1 ≤ task.high := (hall task (List.mem_of_getElem? hget)).2
  have hother : ∀ i u u', i ≠ s'.taskCurrent → s.tasks[i]? = some u → s'.tasks[i]? = some u' →
      PaidBy task.low.toNat u u' := by
    intro i u u' hi hu hu'
    have := hothers i u u' hi hu hu'
    rwa [if_pos (hall u (List.mem_of_getElem? hu)).1] at this
  constructor
  · intro u' hu'
    obtain ⟨i, hi, rfl⟩ := List.getElem_of_mem hu'
    have hget'' := List.getElem?_eq_getElem hi
    by_cases hcur : i = s'.taskCurrent
    · subst hcur
      rw [hget', Option.some.injEq] at hget''
      rw [← hget'', hhigh, hsame]
      exact ⟨Or.inr rfl, (Tcb.runnable_iff.mp hrun).2, hreload⟩
    · have hi' : i < s.tasks.length := by rwa [← h.length]
      have hpaid := hother i _ _ hcur (List.getElem?_eq_getElem hi') hget''
      obtain ⟨hu, huhigh⟩ := hall _ (List.getElem_mem hi')
      obtain ⟨hready, hrt⟩ := Tcb.runnable_iff.mp hu
      rw [hpaid.high, hpaid.same]
      exact ⟨Or.inl hready, hrt, huhigh⟩
  · refine ⟨?_, ?_, ?_, ?_⟩
    · rw [Finset.mem_range, ← h.length]
      exact hlt
    · intro j hj
      have hj := List.getElem?_eq_getElem (Finset.mem_range.mp hj)
      have hmem := List.mem_of_getElem? hj
      rw [counters_eq hget, counters_eq hj]
      exact UInt16.le_iff_toNat_le.mp (hleast _ hmem (hall _ hmem).1)
    · rw [counters_eq hget', hlow]
      exact UInt16.le_iff_toNat_le.mp hreload
    · intro j hj hne
      have hj' : j < s'.tasks.length := by
        rw [h.length]
        exact Finset.mem_range.mp hj
      have hj := List.getElem?_eq_getElem (Finset.mem_range.mp hj)
      have hj' := List.getElem?_eq_getElem hj'
      have hpaid := (hother j _ _ hne hj hj').low
      rw [counters_eq hj', counters_eq hj, counters_eq hget]
      omega

/-- A call among competing tasks does not panic and is a turn of their countdown. -/
theorem Competing.krnlSchedule (h : s.Competing) :
    ∃ s' id, s.krnlSchedule = some (s', id) ∧ s'.Competing ∧ s'.tasks.length = s.tasks.length
      ∧ Countdown.Turn (Finset.range s.tasks.length) s.counters s'.taskCurrent s'.counters := by
  have hall := h.preempt
  have hfound : ∃ u ∈ s.preempt.tasks, u.runnable = true ∧ u.low ≤ s.preempt.first.low :=
    ⟨_, s.preempt.first_mem, (hall _ s.preempt.first_mem).1, UInt16.le_refl _⟩
  obtain ⟨hready, hrt⟩ := Tcb.runnable_iff.mp (select_spec hfound).2.1
  have hselects := switchTo_selects s.preempt_not_running hfound
  obtain ⟨hcomp, hturn⟩ := hselects.turn hall
  have hcounters : s.preempt.counters = s.counters := funext s.preempt_counters
  rw [hcounters, preempt_length] at hturn
  refine ⟨_, _, if_neg (by simp [hready, hrt]), hcomp, ?_, hturn⟩
  rw [hselects.length, preempt_length]

/-! ## Calls in a row -/

/-- Calls in a row are turns of the countdown. -/
theorem Competing.schedules (h : s.Competing) (m : Nat) :
    ∃ s' selected, schedules m s = some (s', selected) ∧ selected.length = m ∧ s'.Competing
      ∧ s'.tasks.length = s.tasks.length
      ∧ Countdown.Turns (Finset.range s.tasks.length) s.counters selected s'.counters := by
  induction m generalizing s with
  | zero => exact ⟨s, [], rfl, rfl, h, rfl, .nil _⟩
  | succ m ih =>
      obtain ⟨s₁, id, hcall, hcomp, hlen, hturn⟩ := h.krnlSchedule
      obtain ⟨s', selected, hrest, hlength, hcomp', hlen', hturns⟩ := ih hcomp
      rw [hlen] at hlen' hturns
      refine ⟨s', s₁.taskCurrent :: selected, ?_, ?_, hcomp', hlen', .cons hturn hturns⟩
      · simp [TaskKcb.schedules, hcall, hrest]
      · simp [hlength]

/-- The calls after the first `k`. -/
theorem schedules_add {k m : Nat} {r : TaskKcb × List Nat} (h : TaskKcb.schedules (k + m) s = some r) :
    ∃ r₁ r₂, TaskKcb.schedules k s = some r₁ ∧ TaskKcb.schedules m r₁.1 = some r₂
      ∧ r = (r₂.1, r₁.2 ++ r₂.2) := by
  induction k generalizing s r with
  | zero => exact ⟨(s, []), r, rfl, by simpa using h, by simp⟩
  | succ k ih =>
      rw [Nat.succ_add] at h
      obtain ⟨t, ht, hrest⟩ := Option.bind_eq_some_iff.mp h
      obtain ⟨r', hr', rfl⟩ := Option.map_eq_some_iff.mp hrest
      obtain ⟨r₁, r₂, h₁, h₂, rfl⟩ := ih hr'
      exact ⟨(r₁.1, t.1.taskCurrent :: r₁.2), r₂, by simp [TaskKcb.schedules, ht, h₁], h₂, by simp⟩

/-- No starvation: `n` competing tasks are each selected in any `256 * n` consecutive calls of a run of
    calls, and no call panics. -/
theorem krnlSchedule_serves_all (s : TaskKcb) (h : s.Competing) (m : Nat) :
    ∃ s' selected, TaskKcb.schedules m s = some (s', selected) ∧ selected.length = m
      ∧ ∀ k, k + 256 * s.tasks.length ≤ m → ∀ i < s.tasks.length,
        i ∈ (selected.drop k).take (256 * s.tasks.length) := by
  obtain ⟨s', selected, hcalls, hlength, -, -, -⟩ := h.schedules m
  refine ⟨s', selected, hcalls, hlength, ?_⟩
  intro k hk i hi
  -- the calls before the window, those in it, and those behind it
  obtain ⟨b, rfl⟩ := Nat.exists_eq_add_of_le hk
  rw [Nat.add_assoc] at hcalls
  obtain ⟨⟨s₁, before⟩, r, hbefore, hr, heq⟩ := schedules_add hcalls
  obtain ⟨⟨s₂, window⟩, ⟨s₃, behind⟩, hwindow, -, rfl⟩ := schedules_add hr
  obtain ⟨t₁, l₁, hb, hblen, hcomp₁, hlen₁, -⟩ := h.schedules k
  rw [hbefore, Option.some.injEq, Prod.mk.injEq] at hb
  obtain ⟨rfl, rfl⟩ := hb
  obtain ⟨t₂, l₂, hw, hwlen, -, -, hturns⟩ := hcomp₁.schedules (256 * s.tasks.length)
  rw [hwindow, Option.some.injEq, Prod.mk.injEq] at hw
  obtain ⟨rfl, rfl⟩ := hw
  rw [hlen₁] at hturns
  have hmem : i ∈ window := by
    refine hturns.mem_of_length (Finset.mem_range.mpr hi) (s₁.counters_le i) ?_
    rw [Finset.card_range, hwlen]
  obtain ⟨-, rfl⟩ := Prod.mk.inj heq
  rw [List.drop_left' hblen, List.take_left' hwlen]
  exact hmem

/-- The two tasks there are after a spawn, both of priority `TASK_NORMAL_PRIO`. -/
theorem krnlSchedule_serves_boot :
    boot.ucxTaskSpawn.Competing ∧ ∃ s' selected,
      TaskKcb.schedules 600 boot.ucxTaskSpawn = some (s', selected) ∧ selected.length = 600
        ∧ ∀ k, k + 512 ≤ 600 → ∀ i < 2, i ∈ (selected.drop k).take 512 :=
  ⟨by decide, krnlSchedule_serves_all boot.ucxTaskSpawn (by decide) 600⟩

end TaskKcb

end UcxArinc
