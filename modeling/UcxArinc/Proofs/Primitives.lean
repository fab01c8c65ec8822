import UcxArinc.Implementation.System

set_option autoImplicit false

/-! # The primitives of the control block

What each primitive the services are built from does to the control block, as a record update, and
what the search functions find. -/

namespace UcxArinc

namespace Pcb

variable {s s' : Pcb}

/-! ## Records -/

@[simp] theorem modProc_proc_self (s : Pcb) (p : Nat) (f : Process → Process) :
    (s.modProc p f).proc p = f (s.proc p) := Function.update_self _ _ _

@[simp] theorem modProc_proc_of_ne {p p' : Nat} (h : p' ≠ p) (s : Pcb) (f : Process → Process) :
    (s.modProc p f).proc p' = s.proc p' := Function.update_of_ne h _ _

/-- A rewritten record, whichever process is asked for. -/
theorem modProc_proc (s : Pcb) (p p' : Nat) (f : Process → Process) :
    (s.modProc p f).proc p' = if p' = p then f (s.proc p) else s.proc p' :=
  Function.update_apply _ _ _ _

@[simp] theorem modProc_modProc (s : Pcb) (p : Nat) (f g : Process → Process) :
    (s.modProc p f).modProc p g = s.modProc p fun x => g (f x) := by
  simp [modProc]

/-- Two rewrites that agree on the record. -/
theorem modProc_congr {p : Nat} {f g : Process → Process} (h : f (s.proc p) = g (s.proc p)) :
    s.modProc p f = s.modProc p g := by
  rw [modProc, modProc, h]

/-! ## Outcomes -/

/-- A service that refuses its parameters, or goes on. -/
theorem refused_elim {P : Outcome → Prop} {c : Prop} [Decidable c] {rc : ReturnCode} {o : Outcome}
    (hret : P (s.ret rc)) (h : ¬ c → P o) : P (if c then s.ret rc else o) := by
  by_cases hc : c
  · rw [if_pos hc]
    exact hret
  · rw [if_neg hc]
    exact h hc

/-! ## Waiting lists -/

/-- The counters after `addWaitingCount`. -/
def countAfter (s : Pcb) (q : WaitList) (d : Int) : WaitKind × Nat → Int :=
  match q.kind with
  | none => s.waitingCount
  | some k => Function.update s.waitingCount (k, q.index) (s.waitingCount (k, q.index) + d)

theorem addWaitingCount_eq (s : Pcb) (q : WaitList) (d : Int) :
    s.addWaitingCount q d = { s with waitingCount := s.countAfter q d } := by
  unfold addWaitingCount countAfter
  cases q.kind <;> rfl

/-- The other counters stay. -/
theorem countAfter_of_ne {q : WaitList} {k : WaitKind} {i : Nat} (h : q.kind ≠ some k ∨ q.index ≠ i)
    (d : Int) : s.countAfter q d (k, i) = s.waitingCount (k, i) := by
  unfold countAfter
  cases hk : q.kind with
  | none => rfl
  | some k' =>
      refine Function.update_of_ne (fun heq => ?_) _ _
      obtain ⟨rfl, rfl⟩ := Prod.mk.inj heq
      rcases h with h | h
      · exact h hk
      · exact h rfl

/-- The counters when list `q` is created. -/
def countFresh (s : Pcb) (q : WaitList) : WaitKind × Nat → Int :=
  match q.kind with
  | none => s.waitingCount
  | some k => Function.update s.waitingCount (k, q.index) 0

theorem countFresh_of_ne {q : WaitList} {k : WaitKind} {i : Nat}
    (h : q.kind ≠ some k ∨ q.index ≠ i) : s.countFresh q (k, i) = s.waitingCount (k, i) := by
  unfold countFresh
  cases hk : q.kind with
  | none => rfl
  | some k' =>
      refine Function.update_of_ne (fun heq => ?_) _ _
      obtain ⟨rfl, rfl⟩ := Prod.mk.inj heq
      rcases h with h | h
      · exact h hk
      · exact h rfl

theorem freshWaitList_eq (s : Pcb) (q : WaitList) :
    s.freshWaitList q = { s with
      waitingProcesses := Function.update s.waitingProcesses q []
      waitingCount := s.countFresh q } := by
  unfold freshWaitList countFresh
  cases q.kind <;> rfl

/-- New lists change nothing but the lists and their counters. -/
theorem freshLists_eq (s : Pcb) (l : List WaitList) : ∃ lists counts,
    l.foldl freshWaitList s = { s with waitingProcesses := lists, waitingCount := counts } := by
  induction l generalizing s with
  | nil => exact ⟨_, _, rfl⟩
  | cons q l ih =>
      obtain ⟨lists, counts, heq⟩ := ih (s.freshWaitList q)
      rw [List.foldl_cons, heq, freshWaitList_eq]
      exact ⟨_, _, rfl⟩

/-- The waiters of list `q` after `p` has been inserted. -/
def insertedWaiters (s : Pcb) (q : WaitList) (discipline : QueuingDiscipline) (p : Nat) : List Nat :=
  match discipline with
  | .priority => (s.waitingProcesses q).orderedInsert
      (fun a b => (s.proc b).currentPriority < (s.proc a).currentPriority) p
  | .fifo => s.waitingProcesses q ++ [p]

theorem insertedWaiters_perm (s : Pcb) (q : WaitList) (discipline : QueuingDiscipline) (p : Nat) :
    (s.insertedWaiters q discipline p).Perm (p :: s.waitingProcesses q) := by
  cases discipline with
  | fifo => exact List.perm_append_singleton _ _
  | priority => exact List.perm_orderedInsert _ _ _

/-- The record of a process that has just blocked in list `q`. -/
def blockedRecord (q : WaitList) (linked : Bool) (timer : Option Int) (x : Process) : Process :=
  { x with
    processState := .waiting
    waiting := match linked, q.kind with
      | true, some k => Function.update x.waiting k (some q.index)
      | _, _ => x.waiting
    timeCounter := timer.getD x.timeCounter }

theorem waitOn_eq (s : Pcb) (p : Nat) (q : WaitList) (linked : Bool)
    (discipline : QueuingDiscipline) (timer : Option Int) :
    s.waitOn p q linked discipline timer = { s.modProc p (blockedRecord q linked timer) with
      waitingCount := s.countAfter q 1
      waitingProcesses := Function.update s.waitingProcesses q
        ((s.modProc p (blockedRecord q linked timer)).insertedWaiters q discipline p) } := by
  show ((s.modProc p (blockedRecord q linked timer)).addWaitingCount q 1).insertWaiting q discipline p
    = _
  rw [addWaitingCount_eq]
  rfl

/-- The state a process leaves that blocks in list `q`, to resume in `k`. -/
theorem blocked_eq (s : Pcb) (p : Nat) (q : WaitList) (linked : Bool)
    (discipline : QueuingDiscipline) (timer : Option Int) (k : Context) :
    ((s.waitOn p q linked discipline timer).yieldToPartition p k).1 = { s with
      proc := Function.update s.proc p { blockedRecord q linked timer (s.proc p) with context := k }
      waitingCount := s.countAfter q 1
      waitingProcesses := Function.update s.waitingProcesses q
        ((s.modProc p (blockedRecord q linked timer)).insertedWaiters q discipline p)
      ctl := .partitionOs } := by
  rw [waitOn_eq]
  unfold yieldToPartition toPartitionOs modProc
  dsimp only
  rw [Function.update_self, Function.update_idem]

/-- The state a process leaves that waits for room in the error list. -/
theorem blockedOnErrors_eq (s : Pcb) (p : Nat) (error : ErrorStatus) (k : Context) :
    (({ s.modProc p fun x => { x with
          processState := .waiting
          pendingError := error } with
        waitingProcesses := Function.update s.waitingProcesses .errorProcesses
          (p :: s.waitingProcesses .errorProcesses) } : Pcb).yieldToPartition p k).1 = { s with
      proc := Function.update s.proc p { s.proc p with
        processState := .waiting
        pendingError := error
        context := k }
      waitingProcesses := Function.update s.waitingProcesses .errorProcesses
        (p :: s.waitingProcesses .errorProcesses)
      ctl := .partitionOs } := by
  unfold yieldToPartition toPartitionOs modProc
  dsimp only
  rw [Function.update_self, Function.update_idem]

/-- What waking the first waiter of a list does. -/
theorem wakeFirst_eq_some {q : WaitList} {cancel : Bool} {p : Nat}
    (h : s.wakeFirst q cancel = some (p, s')) :
    ∃ rest, s.waitingProcesses q = p :: rest
      ∧ s' = { s.modProc p (wakeProcess q.kind cancel) with
          waitingProcesses := Function.update s.waitingProcesses q rest
          waitingCount := s.countAfter q (-1) } := by
  unfold wakeFirst at h
  split at h
  · cases h
  · next p' rest hq =>
      dsimp only at h
      rw [addWaitingCount_eq] at h
      obtain ⟨rfl, rfl⟩ := Prod.mk.inj (Option.some.inj h)
      exact ⟨rest, hq, rfl⟩

/-- Waking changes the record of the process woken, and no other. -/
theorem wakeFirst_proc {q : WaitList} {cancel : Bool} {p : Nat}
    (h : s.wakeFirst q cancel = some (p, s')) (p' : Nat) :
    s'.proc p' = if p' = p then wakeProcess q.kind cancel (s.proc p) else s.proc p' := by
  obtain ⟨rest, -, rfl⟩ := wakeFirst_eq_some h
  exact modProc_proc s p p' _

/-- The process woken is `READY`. -/
theorem wakeFirst_ready {q : WaitList} {cancel : Bool} {p : Nat}
    (h : s.wakeFirst q cancel = some (p, s')) : (s'.proc p).processState = .ready := by
  rw [wakeFirst_proc h, if_pos rfl]
  rfl

/-- Nobody is woken exactly when nobody waits. -/
theorem wakeFirst_eq_none {q : WaitList} {cancel : Bool} :
    s.wakeFirst q cancel = none ↔ s.waitingProcesses q = [] := by
  unfold wakeFirst
  split
  · next h => simp [h]
  · next p rest h => simp [h]

/-- What `check_available_resources_on_partition_port` does to the waiters of a port with messages. -/
def wokenFirst (s : Pcb) (q : WaitList) : Pcb :=
  match s.wakeFirst q false with
  | none => s
  | some (_, s) => s

theorem wokenFirst_cases (s : Pcb) (q : WaitList) : (s.waitingProcesses q = [] ∧ s.wokenFirst q = s)
    ∨ ∃ p, s.wakeFirst q false = some (p, s.wokenFirst q) := by
  unfold wokenFirst
  cases h : s.wakeFirst q false with
  | none => exact Or.inl ⟨wakeFirst_eq_none.mp h, rfl⟩
  | some w => exact Or.inr ⟨w.1, rfl⟩

/-- The two tests of a port, each with its wake-up. -/
theorem checkPort_eq (s : Pcb) (index c : Nat) : s.checkPort index c =
    if 0 < (s.krnl.queuingChannels c).currentNbMessages
        ∧ (s.res.queuingPorts index).portDirection = .destination then
      (if (s.krnl.queuingChannels c).currentNbMessages < (s.krnl.queuingChannels c).maxNbMessages
          ∧ (s.res.queuingPorts index).maxMessageSize = 0 then s.wokenFirst (.queuingPort index)
        else s).wokenFirst (.queuingPort index)
    else if (s.krnl.queuingChannels c).currentNbMessages < (s.krnl.queuingChannels c).maxNbMessages
        ∧ (s.res.queuingPorts index).maxMessageSize = 0 then s.wokenFirst (.queuingPort index)
      else s := rfl

/-! ## Searches -/

theorem findIndex_eq_some {count : Nat} {f : Nat → Bool} {i : Nat}
    (h : findIndex count f = some i) : i < count ∧ f i = true :=
  ⟨List.mem_range.mp (List.mem_of_find?_eq_some h), List.find?_some h⟩

theorem isProcessIdExisted_eq_some {processId : Int} {node : Node}
    (h : s.isProcessIdExisted processId = some node) :
    node ∈ s.processes ∧ (s.proc node.data).processId = processId :=
  ⟨List.mem_of_find?_eq_some h, by simpa using List.find?_some h⟩

/-! ## Leaving waiting queues -/

/-- `s'` is `s` but for the waiting lists, their counters and the back-pointers of `p`. -/
def SameButQueues (p : Nat) (s s' : Pcb) : Prop :=
  ∃ waiting lists counts, s' = { s with
    proc := Function.update s.proc p { s.proc p with waiting := waiting }
    waitingProcesses := lists
    waitingCount := counts }

theorem SameButQueues.refl (p : Nat) (s : Pcb) : SameButQueues p s s :=
  ⟨(s.proc p).waiting, s.waitingProcesses, s.waitingCount, by rw [Function.update_eq_self]⟩

theorem SameButQueues.trans {p : Nat} {s s' s'' : Pcb} (h : SameButQueues p s s')
    (h' : SameButQueues p s' s'') : SameButQueues p s s'' := by
  obtain ⟨w, l, c, rfl⟩ := h
  obtain ⟨w', l', c', rfl⟩ := h'
  refine ⟨w', l', c', ?_⟩
  dsimp only
  rw [Function.update_self, Function.update_idem]

theorem unlink_same (s : Pcb) (p : Nat) (q : WaitList) : SameButQueues p s (s.unlink p q) := by
  unfold unlink
  split
  · rw [addWaitingCount_eq]
    exact ⟨(s.proc p).waiting, _, _, by rw [Function.update_eq_self]⟩
  · exact .refl p s

theorem foldl_same {α : Type} {p : Nat} {f : Pcb → α → Pcb} (hf : ∀ s a, SameButQueues p s (f s a))
    (l : List α) (s : Pcb) : SameButQueues p s (l.foldl f s) := by
  induction l generalizing s with
  | nil => exact .refl p s
  | cons a l ih => exact (hf s a).trans (ih _)

theorem leaveQueue_same (p : Nat) (s : Pcb) (k : WaitKind) :
    SameButQueues p s (leaveQueue p s k) := by
  unfold leaveQueue
  split
  · exact .refl p s
  · exact (foldl_same (fun s q => unlink_same s p q) _ s).trans ⟨_, _, _, rfl⟩

theorem removeProcessFromWaitingQueue_same (s : Pcb) (p : Nat) :
    SameButQueues p s (s.removeProcessFromWaitingQueue p) :=
  foldl_same (fun s k => leaveQueue_same p s k) _ s

/-! ## Handing a mutex over -/

/-- A record that gets a mutex keeps its other fields. -/
theorem giveMutex_proc (s : Pcb) (index p p' : Nat) (mutexId : Int) :
    (s.giveMutex index p mutexId).proc p' = if p' = p then { s.proc p with
        ownedMutexId := mutexId
        currentPriority := (s.res.mutexes index).mutexPriority }
      else s.proc p' := by
  unfold giveMutex
  exact modProc_proc _ _ _ _

theorem giveMutex_processState (s : Pcb) (index p p' : Nat) (mutexId : Int) :
    ((s.giveMutex index p mutexId).proc p').processState = (s.proc p').processState := by
  rw [giveMutex_proc]
  split
  · next h => rw [h]
  · rfl

/-- The mutex stays free if nobody waits; otherwise the first waiter gets it and its node moves to
    the head of the process list. -/
theorem handMutexOver_eq_some {index : Nat} {mutexId : Int}
    (h : s.handMutexOver index mutexId = some s') :
    (s.waitingProcesses (.mutex index) = [] ∧ s' = s)
      ∨ ∃ woken t node, s.wakeFirst (.mutex index) true = some (woken, t)
        ∧ (t.giveMutex index woken mutexId).isProcessIdExisted
          ((t.giveMutex index woken mutexId).proc woken).processId = some node
        ∧ s' = (((t.giveMutex index woken mutexId).listRemove node).listPush woken).1 := by
  unfold handMutexOver at h
  split at h
  · next hwake =>
      cases h
      exact Or.inl ⟨wakeFirst_eq_none.mp hwake, rfl⟩
  · next woken t hwake =>
      dsimp only at h
      split at h
      · cases h
      · next node hnode =>
          cases h
          exact Or.inr ⟨woken, t, node, hwake, hnode, rfl⟩

/-- A hand-over keeps every record but the new owner's. -/
theorem handMutexOver_proc {index : Nat} {mutexId : Int}
    (h : s.handMutexOver index mutexId = some s') :
    s'.proc = s.proc ∨ ∃ woken rest, s.waitingProcesses (.mutex index) = woken :: rest
      ∧ s'.waitingProcesses (.mutex index) = rest
      ∧ ∀ p, s'.proc p = if p = woken then { wakeProcess (some .mutex) true (s.proc woken) with
            ownedMutexId := mutexId
            currentPriority := (s.res.mutexes index).mutexPriority }
          else s.proc p := by
  rcases handMutexOver_eq_some h with ⟨-, rfl⟩ | ⟨woken, t, node, hwake, -, rfl⟩
  · exact Or.inl rfl
  · obtain ⟨rest, hq, heq⟩ := wakeFirst_eq_some hwake
    refine Or.inr ⟨woken, rest, hq, ?_, fun p => ?_⟩
    · show t.waitingProcesses (.mutex index) = rest
      rw [heq]
      exact Function.update_self _ _ _
    have hproc : (t.giveMutex index woken mutexId).proc p = _ := giveMutex_proc t index woken p mutexId
    rw [wakeFirst_proc hwake p, wakeFirst_proc hwake woken, if_pos rfl] at hproc
    rw [show t.res = s.res by rw [heq]; rfl] at hproc
    refine Eq.trans hproc ?_
    by_cases hp : p = woken
    · rw [if_pos hp, if_pos hp]
      rfl
    · rw [if_neg hp, if_neg hp, if_neg hp]

/-! ## Visiting every process -/

/-- The records after `f` has been run on the process of every node. -/
def visited (nodes : List Node) (f : Process → Process) (proc : Nat → Process) : Nat → Process :=
  nodes.foldl (fun proc n => Function.update proc n.data (f (proc n.data))) proc

theorem forEachProcess_eq (s : Pcb) (f : Process → Process) :
    s.forEachProcess f = { s with proc := visited s.processes f s.proc } := by
  have key : ∀ (nodes : List Node) (t : Pcb),
      nodes.foldl (fun s n => s.modProc n.data f) t
        = { t with proc := visited nodes f t.proc } := by
    intro nodes
    induction nodes with
    | nil => intro t; rfl
    | cons n nodes ih => intro t; exact ih (t.modProc n.data f)
  exact key _ _

/-- What every visit keeps of a record, all visits keep. -/
theorem visited_rel {R : Process → Process → Prop} (hrefl : ∀ x, R x x)
    (htrans : ∀ x y z, R x y → R y z → R x z) {f : Process → Process} (hf : ∀ x, R x (f x))
    (nodes : List Node) (proc : Nat → Process) (p : Nat) : R (proc p) (visited nodes f proc p) := by
  unfold visited
  induction nodes generalizing proc with
  | nil => exact hrefl _
  | cons n nodes ih =>
      have hfirst : R (proc p) (Function.update proc n.data (f (proc n.data)) p) := by
        by_cases hp : p = n.data
        · rw [hp, Function.update_self]
          exact hf _
        · rw [Function.update_of_ne hp]
          exact hrefl _
      exact htrans _ _ _ hfirst (ih _)

/-- A visit that changes no record. -/
theorem visited_eq_self {nodes : List Node} {f : Process → Process} {proc : Nat → Process}
    (h : ∀ n ∈ nodes, f (proc n.data) = proc n.data) : visited nodes f proc = proc := by
  unfold visited
  induction nodes with
  | nil => rfl
  | cons n nodes ih =>
      rw [List.foldl_cons, h n List.mem_cons_self, Function.update_eq_self]
      exact ih fun m hm => h m (List.mem_cons_of_mem _ hm)

/-- What `start_process` does to a record: an aperiodic process that has no initial delay becomes
    `READY`, and the times are set. -/
theorem startProcess_eq (uptime : Nat) (point : Int) (x : Process) :
    ∃ release deadline, startProcess uptime point x = { x with
      releasePointTime := release
      deadlineTime := deadline
      processState :=
        if x.processState = .waiting ∧ x.attributes.period = infiniteTimeValue ∧
          x.savedInitDelay = 0 ∧ x.isSuspended = false then .ready else x.processState } := by
  unfold startProcess
  by_cases hready : x.processState = .waiting ∧ x.attributes.period = infiniteTimeValue ∧
      x.savedInitDelay = 0 ∧ x.isSuspended = false
  · rw [if_pos hready, if_pos hready]
    exact ⟨x.releasePointTime, _, rfl⟩
  · rw [if_neg hready, if_neg hready]
    dsimp only
    split_ifs
    all_goals exact ⟨_, _, rfl⟩

/-! ## Scheduling -/

/-- The process selected by the loop of `process_schedule` is linked and `READY`. -/
theorem foldl_scheduleCandidate_eq_some {nodes : List Node} {init : Option Node} {node : Node}
    (h : nodes.foldl s.scheduleCandidate init = some node) :
    (node ∈ nodes ∧ (s.proc node.data).processState = .ready) ∨ init = some node := by
  induction nodes generalizing init with
  | nil => exact Or.inr h
  | cons n nodes ih =>
      rw [List.foldl_cons] at h
      rcases ih h with ⟨hmem, hready⟩ | hinit
      · exact Or.inl ⟨List.mem_cons_of_mem _ hmem, hready⟩
      · unfold scheduleCandidate at hinit
        dsimp only at hinit
        split_ifs at hinit with hsel
        · cases hinit
          exact Or.inl ⟨List.mem_cons_self, hsel.1⟩
        · exact Or.inr hinit

theorem requeueCurrent_eq (s : Pcb) :
    s.requeueCurrent = s ∨ ∃ node, s.processCurrent = some node
      ∧ (s.proc node.data).processState = .running
      ∧ s.requeueCurrent = s.modProc node.data fun x => { x with processState := .ready } := by
  unfold requeueCurrent
  split
  · exact Or.inl rfl
  · next node hnode =>
      split
      · next hself => exact Or.inr ⟨node, hnode, hself, rfl⟩
      · exact Or.inl rfl

/-- What `process_schedule` decides, once the running process is `READY` again: the error handler, the
    process selected, or nobody. -/
theorem processSchedule_cases (s : Pcb) :
    (∃ p, s.errorHandlerProcess = some p ∧ (s.requeueCurrent.proc p).processState = .ready
        ∧ s.processSchedule = s.requeueCurrent.dispatch p
          (s.requeueCurrent.processes.find? fun n => decide (n.data = p)))
      ∨ (∃ node ∈ s.requeueCurrent.processes, (s.requeueCurrent.proc node.data).processState = .ready
        ∧ s.processSchedule = s.requeueCurrent.dispatch node.data (some node))
      ∨ s.processSchedule = s.requeueCurrent.setCurrent none := by
  have hhandler : s.requeueCurrent.errorHandlerProcess = s.errorHandlerProcess := by
    rcases requeueCurrent_eq s with h | ⟨node, -, -, h⟩ <;> rw [h]
    rfl
  unfold processSchedule
  dsimp only
  split
  · next p hp =>
      obtain ⟨hsome, hready⟩ := Option.filter_eq_some_iff.mp hp
      exact Or.inl ⟨p, hhandler ▸ hsome, by simpa using hready, rfl⟩
  · split
    · exact Or.inr (Or.inr rfl)
    · next node hnode =>
        rcases foldl_scheduleCandidate_eq_some hnode with ⟨hmem, hready⟩ | hnone
        · exact Or.inr (Or.inl ⟨node, hmem, hready, rfl⟩)
        · cases hnone

/-- Ready to run, or running. -/
def Active (st : ProcessState) : Prop := st = .ready ∨ st = .running

/-- `y` is `x` in another process state, or in the same; only an active process leaves its state, for an
    active one. -/
def Rescheduled (x y : Process) : Prop :=
  ∃ st, y = { x with processState := st } ∧ (st = x.processState ∨ Active x.processState ∧ Active st)

theorem Rescheduled.refl (x : Process) : Rescheduled x x := ⟨x.processState, rfl, Or.inl rfl⟩

theorem Rescheduled.trans {x y z : Process} (h : Rescheduled x y) (h' : Rescheduled y z) :
    Rescheduled x z := by
  obtain ⟨st, rfl, hst⟩ := h
  obtain ⟨st', rfl, hst'⟩ := h'
  refine ⟨st', rfl, ?_⟩
  rcases hst' with hsame | ⟨hfrom, hto⟩
  · rw [hsame]
    exact hst
  · rcases hst with hsame | ⟨hfrom', -⟩
    · exact Or.inr ⟨by rw [← hsame]; exact hfrom, hto⟩
    · exact Or.inr ⟨hfrom', hto⟩

/-- An active process that is given an active state. -/
theorem rescheduled_modProc {p : Nat} {st : ProcessState} (h : Active (s.proc p).processState)
    (hst : Active st) (p' : Nat) :
    Rescheduled (s.proc p') ((s.modProc p fun x => { x with processState := st }).proc p') := by
  by_cases hp : p' = p
  · rw [hp, modProc_proc_self]
    exact ⟨st, rfl, Or.inr ⟨h, hst⟩⟩
  · rw [modProc_proc_of_ne hp]
    exact .refl _

/-- Scheduling changes the states of active processes and the current process, which is linked. -/
theorem processSchedule_eq (s : Pcb) : ∃ proc current,
    s.processSchedule = { s with proc := proc, processCurrent := current }
      ∧ (∀ p, Rescheduled (s.proc p) (proc p)) ∧ ∀ node, current = some node → node ∈ s.processes := by
  have hrequeue : ∃ proc, s.requeueCurrent = { s with proc := proc }
      ∧ ∀ p, Rescheduled (s.proc p) (proc p) := by
    rcases requeueCurrent_eq s with h | ⟨node, -, hself, h⟩
    · exact ⟨s.proc, h, fun p => .refl _⟩
    · exact ⟨_, h, rescheduled_modProc (Or.inr hself) (Or.inl rfl)⟩
  obtain ⟨proc, hproc, hfirst⟩ := hrequeue
  rcases processSchedule_cases s with ⟨p, -, hready, heq⟩ | ⟨node, hmem, hready, heq⟩ | heq
  · rw [hproc] at hready heq
    refine ⟨_, _, heq, fun p' => (hfirst p').trans ?_, fun node hnode => ?_⟩
    · exact rescheduled_modProc (s := { s with proc := proc }) (Or.inl hready) (Or.inr rfl) p'
    · exact List.mem_of_find?_eq_some hnode
  · rw [hproc] at hmem hready heq
    refine ⟨_, _, heq, fun p' => (hfirst p').trans ?_, fun n hn => ?_⟩
    · exact rescheduled_modProc (s := { s with proc := proc }) (Or.inl hready) (Or.inr rfl) p'
    · cases hn
      exact hmem
  · rw [hproc] at heq
    exact ⟨proc, none, heq, hfirst, fun _ hn => by cases hn⟩

/-- The process dispatched is linked and runs. -/
theorem processSchedule_current {node : Node} (h : s.processSchedule.processCurrent = some node) :
    node ∈ s.processSchedule.processes
      ∧ (s.processSchedule.proc node.data).processState = .running := by
  rcases processSchedule_cases s with ⟨p, -, -, heq⟩ | ⟨n, hmem, -, heq⟩ | heq
  · rw [heq] at h ⊢
    have hfound : s.requeueCurrent.processes.find? (fun n => decide (n.data = p)) = some node := h
    have hdata : node.data = p := by simpa using List.find?_some hfound
    refine ⟨List.mem_of_find?_eq_some hfound, ?_⟩
    rw [dispatch, hdata, modProc_proc_self]
  · rw [heq] at h ⊢
    cases h
    refine ⟨hmem, ?_⟩
    rw [dispatch, modProc_proc_self]
  · rw [heq] at h
    cases h

end Pcb

end UcxArinc
