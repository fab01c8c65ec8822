import UcxArinc.Implementation.ApexTypes

set_option autoImplicit false

/-! # The native task scheduler

`krnl_schedule` of `kernel/ucx.c` in its default version, with the calls of the task management API
that change what it schedules. A task is found by its position in `kcb->tasks`; memory for a new task is
taken as available. -/

namespace UcxArinc

/-! ## Tasks -/

/-- `enum task_states`. -/
inductive TaskState
  | stopped
  | ready
  | running
  | blocked
  | suspended
  deriving DecidableEq, Repr

/-- What the scheduler and the task management API use of a `tcb_s`; `rt_prio` is a pointer, 0 for
    none. -/
structure Tcb where
  id : UInt16
  state : TaskState
  priority : UInt16
  rtPrio : Nat
  delay : UInt16
  deriving DecidableEq, Repr

namespace Tcb

/-- `priority & 0xff`: the current priority. -/
def low (task : Tcb) : UInt16 := task.priority &&& 0xff

/-- `(priority >> 8) & 0xff`: the priority the current one is reloaded from. -/
def high (task : Tcb) : UInt16 := (task.priority >>> 8) &&& 0xff

/-- `task->state == TASK_READY && !task->rt_prio`. -/
def runnable (task : Tcb) : Bool := decide (task.state = .ready) && decide (task.rtPrio = 0)

/-- A `RUNNING` task becomes `READY` when the scheduler is entered. -/
def preempted (task : Tcb) : Tcb :=
  if task.state = .running then { task with state := .ready } else task

/-- `delay_update`. -/
def delayUpdate (task : Tcb) : Tcb :=
  if task.state = .blocked ∧ 0 < task.delay then
    { task with
      delay := task.delay - 1
      state := if task.delay - 1 = 0 then .ready else task.state }
  else task

end Tcb

/-! ## The kernel's tasks -/

/-- The fields of `kcb_s` the task scheduler uses: the list of tasks, the position of the current one and
    the next identifier. No other task runs. -/
structure TaskKcb where
  tasks : List Tcb
  taskCurrent : Nat
  idNext : UInt16
  current_lt : taskCurrent < tasks.length
  running_eq : ∀ (i : Nat) (h : i < tasks.length), tasks[i].state = .running → i = taskCurrent

namespace TaskKcb

/-- `kcb->task_current->data`. -/
def current (s : TaskKcb) : Tcb := s.tasks.get ⟨s.taskCurrent, s.current_lt⟩

/-- The change starts no task. -/
def StartsNone (f : Tcb → Tcb) : Prop := ∀ task, (f task).state = .running → task.state = .running

/-- Every task rewritten. -/
def mapTasks (s : TaskKcb) (f : Tcb → Tcb) (hf : StartsNone f) : TaskKcb where
  tasks := s.tasks.map f
  taskCurrent := s.taskCurrent
  idNext := s.idNext
  current_lt := by simpa using s.current_lt
  running_eq := by
    intro i h hrun
    simp only [List.getElem_map] at hrun
    exact s.running_eq i (by simpa using h) (hf _ hrun)

/-- The task at a position rewritten. -/
def modTask (s : TaskKcb) (i : Nat) (f : Tcb → Tcb) (hf : StartsNone f) : TaskKcb where
  tasks := s.tasks.modify i f
  taskCurrent := s.taskCurrent
  idNext := s.idNext
  current_lt := by simpa using s.current_lt
  running_eq := by
    intro j h hrun
    rw [List.getElem_modify] at hrun
    split at hrun
    · exact s.running_eq j (by simpa using h) (hf _ hrun)
    · exact s.running_eq j (by simpa using h) hrun

theorem preempted_startsNone : StartsNone Tcb.preempted := by
  intro task h
  unfold Tcb.preempted at h
  split at h
  · assumption
  · exact h

/-- The current task, if it runs, becomes `READY`. -/
def preempt (s : TaskKcb) : TaskKcb := s.modTask s.taskCurrent Tcb.preempted preempted_startsNone

/-! ## `krnl_schedule` -/

/-- The first loop over the tasks, from position `i` on, with the task selected so far: a runnable task
    whose current priority is no worse is selected instead. -/
def scan : Nat → List Tcb → Nat × Tcb → Nat × Tcb
  | _, [], select => select
  | i, task :: rest, select =>
    scan (i + 1) rest (if task.low ≤ select.2.low ∧ task.runnable then (i, task) else select)

/-- The second loop: the runnable tasks pay the current priority of the selected one. -/
def pay (priority : UInt16) (task : Tcb) : Tcb :=
  if task.runnable then { task with priority := task.priority - (priority &&& 0xff) } else task

/-- The selected task, its current priority reloaded, runs. -/
def reload (task : Tcb) : Tcb :=
  { task with priority := task.priority ||| task.high, state := .running }

theorem length_pos (s : TaskKcb) : 0 < s.tasks.length := Nat.zero_lt_of_lt s.current_lt

/-- `kcb->tasks->head->next->data`. -/
def first (s : TaskKcb) : Tcb := s.tasks.get ⟨0, s.length_pos⟩

/-- The task the first loop selects, with its position. -/
def select (s : TaskKcb) : Nat × Tcb := scan 0 s.tasks (0, s.first)

theorem scan_lt {n : Nat} : ∀ {i : Nat} {rest : List Tcb} {select : Nat × Tcb}, select.1 < n →
    i + rest.length ≤ n → (scan i rest select).1 < n := by
  intro i rest
  induction rest generalizing i with
  | nil =>
      intro select hselect _
      simpa [scan] using hselect
  | cons task rest ih =>
      intro select hselect hlen
      simp only [List.length_cons] at hlen
      simp only [scan]
      refine ih ?_ (by omega)
      split
      · dsimp only
        omega
      · exact hselect

theorem select_lt (s : TaskKcb) : s.select.1 < s.tasks.length :=
  scan_lt s.length_pos (Nat.zero_add _).le

theorem preempt_not_running (s : TaskKcb) (i : Nat) (h : i < s.preempt.tasks.length) :
    s.preempt.tasks[i].state ≠ .running := by
  have hi : i < s.tasks.length := by simpa [preempt, modTask] using h
  have hget : s.preempt.tasks[i] = if s.taskCurrent = i then s.tasks[i].preempted else s.tasks[i] :=
    List.getElem_modify ..
  rw [hget]
  split
  · unfold Tcb.preempted
    split
    · simp
    · assumption
  · next hne =>
      intro hrun
      exact hne (s.running_eq i hi hrun).symm

/-- The end of `krnl_schedule`: the runnable tasks have paid, the selected one runs. -/
def switchTo (s : TaskKcb) (hnone : ∀ (i : Nat) (h : i < s.tasks.length), s.tasks[i].state ≠ .running) :
    TaskKcb where
  tasks := (s.tasks.map (pay s.select.2.priority)).modify s.select.1 reload
  taskCurrent := s.select.1
  idNext := s.idNext
  current_lt := by simpa using s.select_lt
  running_eq := by
    intro i h hrun
    rw [List.getElem_modify] at hrun
    split at hrun
    · next heq => exact heq.symm
    · have hi : i < s.tasks.length := by simpa using h
      refine absurd ?_ (hnone i hi)
      rw [List.getElem_map] at hrun
      unfold pay at hrun
      split at hrun <;> exact hrun

/-- `krnl_schedule`, with the identifier it returns; `none` is `krnl_panic`. -/
def krnlSchedule (s : TaskKcb) : Option (TaskKcb × UInt16) :=
  let tselect := s.preempt.select.2
  if tselect.state ≠ .ready ∨ tselect.rtPrio ≠ 0 then none
  else some (s.preempt.switchTo s.preempt_not_running, tselect.id)

/-! ## The task management API -/

/-- The codes of `enum ecodes` the task management API returns. -/
inductive TaskError
  | ok
  | taskCantRemove
  | taskNotFound
  | taskCantSuspend
  | taskCantResume
  | taskInvalidPrio
  deriving DecidableEq, Repr

/-- `TASK_NORMAL_PRIO`. -/
def taskNormalPrio : UInt16 := 0x1f1f

/-- `enum task_priorities`. -/
def taskPriorities : List UInt16 :=
  [0x0101, 0x0303, 0x0707, 0x0f0f, taskNormalPrio, 0x3f3f, 0x7f7f, 0xffff]

/-- `list_foreach(kcb->tasks, idcmp, id)`. -/
def findTask (s : TaskKcb) (id : UInt16) : Option Nat :=
  s.tasks.findIdx? fun task => decide (task.id = id)

/-- A task as `ucx_task_spawn` leaves it. -/
def newTask (id : UInt16) : Tcb := ⟨id, .ready, taskNormalPrio, 0, 0⟩

/-- `ucx_task_spawn`. -/
def ucxTaskSpawn (s : TaskKcb) : TaskKcb where
  tasks := s.tasks ++ [newTask s.idNext]
  taskCurrent := s.taskCurrent
  idNext := s.idNext + 1
  current_lt := by
    simp only [List.length_append, List.length_singleton]
    exact Nat.lt_succ_of_lt s.current_lt
  running_eq := by
    intro i h hrun
    by_cases hi : i < s.tasks.length
    · rw [List.getElem_append_left hi] at hrun
      exact s.running_eq i hi hrun
    · rw [List.getElem_append_right (by omega)] at hrun
      simp [newTask] at hrun

/-- The task at a position other than the current one unlinked. -/
def removeTask (s : TaskKcb) (i : Nat) (hi : i < s.tasks.length) (hne : i ≠ s.taskCurrent) : TaskKcb where
  tasks := s.tasks.eraseIdx i
  taskCurrent := if i < s.taskCurrent then s.taskCurrent - 1 else s.taskCurrent
  idNext := s.idNext
  current_lt := by
    have := s.current_lt
    rw [List.length_eraseIdx_of_lt hi]
    split <;> omega
  running_eq := by
    intro j h hrun
    rw [List.length_eraseIdx_of_lt hi] at h
    rw [List.getElem_eraseIdx] at hrun
    split at hrun
    · have := s.running_eq j (by omega) hrun
      split <;> omega
    · have := s.running_eq (j + 1) (by omega) hrun
      split <;> omega

theorem findTask_spec {s : TaskKcb} {id : UInt16} {i : Nat} (h : s.findTask id = some i) :
    ∃ hi : i < s.tasks.length, s.tasks[i].id = id := by
  obtain ⟨hi, hid, -⟩ := List.findIdx?_eq_some_iff_getElem.mp h
  exact ⟨hi, of_decide_eq_true hid⟩

/-- `ucx_task_cancel`. -/
def ucxTaskCancel (s : TaskKcb) (id : UInt16) : TaskKcb × TaskError :=
  if hself : id = s.current.id then (s, .taskCantRemove)
  else
    match h : s.findTask id with
    | none => (s, .taskNotFound)
    | some i =>
      (s.removeTask i (findTask_spec h).1 (by
        rintro rfl
        exact hself (findTask_spec h).2.symm), .ok)

theorem delayUpdate_startsNone : StartsNone Tcb.delayUpdate := by
  intro task h
  unfold Tcb.delayUpdate at h
  split_ifs at h
  · exact h
  · exact h

/-- `dispatch` and `yield` without a scheduler of the application's own. -/
def dispatch (s : TaskKcb) : Option TaskKcb :=
  ((s.mapTasks Tcb.delayUpdate delayUpdate_startsNone).krnlSchedule).map Prod.fst

/-- `ucx_task_delay`. -/
def ucxTaskDelay (s : TaskKcb) (ticks : UInt16) : Option TaskKcb :=
  (s.modTask s.taskCurrent (fun task => { task with delay := ticks, state := .blocked })
    (by intro task h; simp at h)).dispatch

/-- `ucx_task_suspend`. -/
def ucxTaskSuspend (s : TaskKcb) (id : UInt16) : Option (TaskKcb × TaskError) :=
  match s.findTask id with
  | none => some (s, .taskNotFound)
  | some i =>
    if (s.tasks[i]?.map Tcb.state).any fun state => state = .ready ∨ state = .running then
      let s := s.modTask i (fun task => { task with state := .suspended }) (by intro task h; simp at h)
      (if i = s.taskCurrent then s.dispatch else some s).map fun s => (s, .ok)
    else some (s, .taskCantSuspend)

/-- `ucx_task_resume`. -/
def ucxTaskResume (s : TaskKcb) (id : UInt16) : TaskKcb × TaskError :=
  match s.findTask id with
  | none => (s, .taskNotFound)
  | some i =>
    if s.tasks[i]?.map Tcb.state = some .suspended then
      (s.modTask i (fun task => { task with state := .ready }) (by intro task h; simp at h), .ok)
    else (s, .taskCantResume)

/-- `ucx_task_priority`. -/
def ucxTaskPriority (s : TaskKcb) (id priority : UInt16) : TaskKcb × TaskError :=
  if priority ∉ taskPriorities then (s, .taskInvalidPrio)
  else
    match s.findTask id with
    | none => (s, .taskNotFound)
    | some i => (s.modTask i (fun task => { task with priority := priority }) (fun _ h => h), .ok)

/-- `ucx_task_rt_priority`. -/
def ucxTaskRtPriority (s : TaskKcb) (id : UInt16) (priority : Nat) : TaskKcb × TaskError :=
  if priority = 0 then (s, .taskInvalidPrio)
  else
    match s.findTask id with
    | none => (s, .taskNotFound)
    | some i => (s.modTask i (fun task => { task with rtPrio := priority }) (fun _ h => h), .ok)

/-- A call the current task makes. -/
inductive TaskCall
  | spawn
  | cancel (id : UInt16)
  | yield
  | delay (ticks : UInt16)
  | suspend (id : UInt16)
  | resume (id : UInt16)
  | priority (id priority : UInt16)
  | rtPriority (id : UInt16) (priority : Nat)
  deriving DecidableEq, Repr

/-- One call; `none` is `krnl_panic`. -/
def step (s : TaskKcb) : TaskCall → Option TaskKcb
  | .spawn => some s.ucxTaskSpawn
  | .cancel id => some (s.ucxTaskCancel id).1
  | .yield => s.dispatch
  | .delay ticks => s.ucxTaskDelay ticks
  | .suspend id => (s.ucxTaskSuspend id).map Prod.fst
  | .resume id => some (s.ucxTaskResume id).1
  | .priority id priority => some (s.ucxTaskPriority id priority).1
  | .rtPriority id priority => some (s.ucxTaskRtPriority id priority).1

/-- The kernel when it starts the first task the application has spawned. -/
def boot : TaskKcb where
  tasks := [newTask 0]
  taskCurrent := 0
  idNext := 1
  current_lt := Nat.zero_lt_one
  running_eq := by
    intro i h hrun
    simp only [List.length_singleton, Nat.lt_one_iff] at h
    exact h

end TaskKcb

end UcxArinc
