import UcxArinc.Proofs.PortIsolation
import UcxArinc.Proofs.Suspension

set_option autoImplicit false

/-! # What each service can write

The memory of a partition that holds neither a process nor a mutex, in parts: a service writes the parts of
the resources it is about and leaves the others as they are. -/

namespace UcxArinc

namespace Pcb

variable {s s' : Pcb}

/-- The contents of a partition besides its processes, lists and mutexes. -/
structure Stores where
  blackboards : (Nat → Blackboard) × Nat × Area × (Nat → Int)
  buffers : (Nat → Buffer) × Nat × Area × (Nat → Nat) × List Obs
  semaphores : (Nat → Semaphore) × Nat
  events : (Nat → Event) × Nat
  samplingPorts : (Nat → SamplingPort) × Nat
  queuingPorts : (Nat → QueuingPort) × Nat
  errors : ErrorList
  allocation : Nat × Nat × Nat
  krnl : Krnl

def stores (s : Pcb) : Stores where
  blackboards :=
    (s.res.blackboards, s.res.blackboardCount, s.res.blackboardsData, s.res.blackboardsSizeData)
  buffers := (s.res.buffers, s.res.bufferCount, s.res.buffersData, s.res.buffersSizeData, s.log)
  semaphores := (s.res.semaphores, s.res.semaphoreCount)
  events := (s.res.events, s.res.eventCount)
  samplingPorts := (s.res.samplingPorts, s.res.samplingPortCount)
  queuingPorts := (s.res.queuingPorts, s.res.queuingPortCount)
  errors := s.errorListCb
  allocation := (s.nbrProcesses, s.idNext, s.nextStackAddr)
  krnl := s.krnl

/-- `x`, with the parts of `y` that a service writes. -/
def Stores.after (x y : Stores) : Service → Stores
  | .createBlackboard _ _ | .displayBlackboard _ _ _ | .clearBlackboard _ =>
    { x with blackboards := y.blackboards }
  | .createBuffer _ _ _ _ | .sendBuffer _ _ _ _ | .receiveBuffer _ _ _ => { x with buffers := y.buffers }
  | .createSemaphore _ _ _ _ | .waitSemaphore _ _ | .signalSemaphore _ =>
    { x with semaphores := y.semaphores }
  | .createEvent _ | .setEvent _ | .resetEvent _ => { x with events := y.events }
  | .createSamplingPort _ _ _ _ | .readSamplingMessage _ => { x with samplingPorts := y.samplingPorts }
  | .createQueuingPort _ _ _ _ _ => { x with queuingPorts := y.queuingPorts }
  | .writeSamplingMessage _ _ _ | .sendQueuingMessage _ _ _ _ | .receiveQueuingMessage _ _
  | .clearQueuingPort _ => { x with krnl := y.krnl }
  | .createProcess _ => { x with allocation := y.allocation }
  | .createErrorHandler _ => { x with allocation := y.allocation, errors := y.errors }
  | .raiseApplicationError _ _ _ | .getErrorStatus => { x with errors := y.errors }
  | .setPartitionMode _ => { x with allocation := y.allocation, krnl := y.krnl }
  | _ => x

/-! ## Rules for outcomes -/

/-- An outcome that leaves the stores alone. -/
def SameStores (s : Pcb) (o : Outcome) : Prop := o.1.stores = s.stores

theorem SameStores.ite {c : Prop} [Decidable c] {o o' : Outcome} (h : SameStores s o)
    (h' : SameStores s o') : SameStores s (if c then o else o') := by
  split
  · exact h
  · exact h'

theorem withCurrent_elim {P : Outcome → Prop} {f : Node → Outcome} (hcrash : P s.crash)
    (h : ∀ node, s.processCurrent = some node → P (f node)) : P (s.withCurrent f) := by
  unfold withCurrent
  split
  · exact hcrash
  · next node hnode => exact h node hnode

theorem withProcess_elim {P : Outcome → Prop} {processId : Int} {f : Node → Outcome}
    (hret : P (s.ret .invalidParam))
    (h : ∀ node, s.isProcessIdExisted processId = some node → P (f node)) :
    P (s.withProcess processId f) := by
  unfold withProcess
  split
  · exact hret
  · next node hnode => exact h node hnode

theorem SameStores.ret (h : s'.stores = s.stores) (rc : ReturnCode) : SameStores s (s'.ret rc) := h

theorem SameStores.crash (h : s'.stores = s.stores) : SameStores s s'.crash := h

theorem SameStores.yield (h : s'.stores = s.stores) (p : Nat) (k : Context) :
    SameStores s (s'.yieldToPartition p k) := h

/-- An outcome that leaves stores of the form `f x`. -/
def Writes {β : Type} (f : β → Stores) (o : Outcome) : Prop := ∃ x, o.1.stores = f x

theorem Writes.yield {β : Type} {f : β → Stores} (h : ∃ x, s.stores = f x) (p : Nat) (k : Context) :
    Writes f (s.yieldToPartition p k) := h

/-! ## Primitives -/

theorem ite_stores {c : Prop} [Decidable c] {t u : Pcb} (h : t.stores = s.stores)
    (h' : u.stores = s.stores) : (if c then t else u).stores = s.stores := by
  split
  · exact h
  · exact h'

@[simp] theorem modProc_stores (s : Pcb) (p : Nat) (f : Process → Process) :
    (s.modProc p f).stores = s.stores := rfl

@[simp] theorem setMutex_stores (s : Pcb) (i : Nat) (x : Mutex) : (s.setMutex i x).stores = s.stores := rfl

@[simp] theorem setCurrent_stores (s : Pcb) (node : Option Node) : (s.setCurrent node).stores = s.stores := rfl

@[simp] theorem toPartitionOs_stores (s : Pcb) : s.toPartitionOs.stores = s.stores := rfl

@[simp] theorem listRemove_stores (s : Pcb) (node : Node) : (s.listRemove node).stores = s.stores := rfl

@[simp] theorem listPush_stores (s : Pcb) (p : Nat) : (s.listPush p).1.stores = s.stores := rfl

@[simp] theorem listPushback_stores (s : Pcb) (p : Nat) : (s.listPushback p).1.stores = s.stores := rfl

@[simp] theorem giveMutex_stores (s : Pcb) (index p : Nat) (mutexId : Int) :
    (s.giveMutex index p mutexId).stores = s.stores := rfl

@[simp] theorem takeMutexBack_stores (s : Pcb) (index p : Nat) (node : Node) :
    (s.takeMutexBack index p node).1.stores = s.stores := rfl

@[simp] theorem resetLockLevel_stores (s : Pcb) (index : Nat) : (s.resetLockLevel index).stores = s.stores := by
  unfold resetLockLevel
  split <;> rfl

theorem blocked_stores (p : Nat) (q : WaitList) (linked : Bool) (discipline : QueuingDiscipline)
    (timer : Option Int) (k : Context) :
    SameStores s ((s.waitOn p q linked discipline timer).yieldToPartition p k) := by
  rw [waitOn_eq]
  rfl

theorem wakeFirst_stores {q : WaitList} {cancel : Bool} {p : Nat}
    (h : s.wakeFirst q cancel = some (p, s')) : s'.stores = s.stores := by
  obtain ⟨rest, -, rfl⟩ := wakeFirst_eq_some h
  rfl

theorem wakeAllAux_stores (q : WaitList) (n : Nat) (s : Pcb) : (wakeAllAux q n s).stores = s.stores := by
  induction n generalizing s with
  | zero => rfl
  | succ n ih =>
      unfold wakeAllAux
      split
      · rfl
      · next p t hwake => exact (ih t).trans (wakeFirst_stores hwake)

theorem wakeAll_stores (q : WaitList) (s : Pcb) : (s.wakeAll q).stores = s.stores :=
  wakeAllAux_stores q _ s

theorem handMutexOver_stores {index : Nat} {mutexId : Int}
    (h : s.handMutexOver index mutexId = some s') : s'.stores = s.stores := by
  rcases handMutexOver_eq_some h with ⟨-, rfl⟩ | ⟨woken, t, node, hwake, -, rfl⟩
  · rfl
  · exact Eq.trans (b := t.stores) rfl (wakeFirst_stores hwake)

theorem resetOwnedMutex_stores {index p : Nat} {node : Node}
    (h : s.resetOwnedMutex index p node = some s') : s'.stores = s.stores := by
  unfold resetOwnedMutex at h
  dsimp only at h
  refine (handMutexOver_stores h).trans ?_
  split <;> simp

theorem removeProcessFromWaitingQueue_stores (s : Pcb) (p : Nat) :
    (s.removeProcessFromWaitingQueue p).stores = s.stores := by
  obtain ⟨w, l, c, heq⟩ := removeProcessFromWaitingQueue_same s p
  rw [heq]
  rfl

theorem forEachProcess_stores (s : Pcb) (f : Process → Process) : (s.forEachProcess f).stores = s.stores := by
  rw [forEachProcess_eq]
  rfl

/-! ## Processes, time and mutexes -/

theorem setPriority_stores (processId priority : Int) :
    SameStores s (s.setPriority processId priority) := by
  unfold setPriority
  refine withProcess_elim rfl fun node _ => ?_
  dsimp only
  refine refused_elim rfl fun _ => refused_elim rfl fun _ => ?_
  split
  · rfl
  · next t ht =>
      have hchanged : t.stores = s.stores := by
        split at ht
        · obtain ⟨index, -, rfl⟩ := Option.map_eq_some_iff.mp ht
          exact setMutex_stores _ _ _
        · cases ht
          exact modProc_stores _ _ _
      refine .ite ?_ (.ret hchanged _)
      have hmoved := ite_stores (c := (t.proc node.data).processState = .running)
        (t := ((t.listRemove node).listPushback node.data).1.setCurrent
          (some ((t.listRemove node).listPushback node.data).2))
        (u := ((t.listRemove node).listPushback node.data).1) (by simpa using hchanged)
        (by simpa using hchanged)
      exact withCurrent_elim (.crash hmoved) fun current _ => .yield hmoved _ _

theorem suspendSelf_stores (timeOut : Int) : SameStores s (s.suspendSelf timeOut) := by
  unfold suspendSelf
  refine withCurrent_elim rfl fun node _ => ?_
  dsimp only
  split_ifs <;> rfl

theorem suspend_stores (processId : Int) : SameStores s (s.suspend processId) := by
  unfold suspend
  refine withCurrent_elim rfl fun currentNode _ => ?_
  refine withProcess_elim rfl fun node _ => ?_
  dsimp only
  split_ifs <;> rfl

theorem resume_stores (processId : Int) : SameStores s (s.resume processId) := by
  unfold resume
  refine withCurrent_elim rfl fun currentNode _ => ?_
  refine withProcess_elim rfl fun node _ => ?_
  dsimp only
  refine refused_elim rfl fun _ => refused_elim rfl fun _ => refused_elim rfl fun _ => ?_
  refine refused_elim rfl fun _ => ?_
  exact .ite (.yield ((modProc_stores _ _ _).trans (ite_stores (modProc_stores _ _ _) rfl)) _ _)
    (.ret (ite_stores (modProc_stores _ _ _) rfl) _)

theorem stopSelf_stores : SameStores s s.stopSelf := by
  unfold stopSelf
  refine withCurrent_elim rfl fun node _ => ?_
  dsimp only
  split
  · rfl
  · next t ht =>
      split_ifs at ht with howns
      · obtain ⟨index, -, hreset⟩ := Option.bind_eq_some_iff.mp ht
        exact Eq.trans (b := t.stores) rfl (Eq.trans (resetOwnedMutex_stores hreset) rfl)
      · cases ht
        rfl

theorem stop_stores (processId : Int) : SameStores s (s.stop processId) := by
  unfold stop
  refine withCurrent_elim rfl fun currentNode _ => ?_
  refine withProcess_elim rfl fun node _ => ?_
  dsimp only
  refine refused_elim rfl fun _ => refused_elim rfl fun _ => .yield ?_ _ _
  rw [modProc_stores]
  split
  · exact removeProcessFromWaitingQueue_stores s node.data
  · rfl

theorem start_stores (processId : Int) : SameStores s (s.start processId) := by
  unfold start
  refine withProcess_elim rfl fun node _ => ?_
  dsimp only
  refine refused_elim rfl fun _ => refused_elim rfl fun _ => ?_
  refine .ite (.ret (by simp) _) (.ite ?_ (.ret (by simp) _))
  generalize hu : (modProc _ _ _ : Pcb) = u
  have hstarted : u.stores = s.stores := by
    rw [← hu]
    simp
  exact withCurrent_elim (P := SameStores s) hstarted fun current _ => .yield hstarted _ _

theorem delayedStart_stores (processId delayTime : Int) :
    SameStores s (s.delayedStart processId delayTime) := by
  unfold delayedStart
  refine withProcess_elim rfl fun node _ => ?_
  dsimp only
  refine refused_elim rfl fun _ => refused_elim rfl fun _ => refused_elim rfl fun _ => ?_
  refine refused_elim rfl fun _ => refused_elim rfl fun _ => ?_
  refine .ite (.ret (by simp) _) (.ite ?_ (.ret (by simp) _))
  generalize hu : (modProc _ _ _ : Pcb) = u
  have hstarted : u.stores = s.stores := by
    rw [← hu]
    simp
  exact withCurrent_elim (P := SameStores s) hstarted fun current _ => .yield hstarted _ _

theorem timedWait_stores (delayTime : Int) : SameStores s (s.timedWait delayTime) := by
  unfold timedWait
  refine withCurrent_elim rfl fun node _ => ?_
  dsimp only
  refine refused_elim rfl fun _ => refused_elim rfl fun _ => refused_elim rfl fun _ => ?_
  exact .ite (.yield (by simp) _ _) (.yield (by simp) _ _)

theorem periodicWait_stores : SameStores s s.periodicWait := by
  unfold periodicWait
  refine withCurrent_elim rfl fun node _ => ?_
  dsimp only
  split_ifs <;> rfl

theorem replenish_stores (budgetTime : Int) : SameStores s (s.replenish budgetTime) := by
  unfold replenish
  refine withCurrent_elim rfl fun node _ => ?_
  dsimp only
  refine refused_elim rfl fun _ => refused_elim rfl fun _ => refused_elim rfl fun _ => rfl

theorem initializeProcessCoreAffinity_stores (processId processorCoreId : Int) :
    SameStores s (s.initializeProcessCoreAffinity processId processorCoreId) := by
  unfold initializeProcessCoreAffinity
  refine withProcess_elim rfl fun node _ => ?_
  split_ifs <;> rfl

theorem krnlAcquireMutex_stores (mutexId timeOut : Int) (k : Bool → Context) :
    SameStores s (s.krnlAcquireMutex mutexId timeOut k) := by
  unfold krnlAcquireMutex
  split
  · rfl
  · refine refused_elim rfl fun _ => ?_
    refine withCurrent_elim rfl fun node _ => ?_
    dsimp only
    refine refused_elim rfl fun _ => refused_elim rfl fun _ => refused_elim rfl fun _ => ?_
    split_ifs
    iterate 4 rfl
    · exact blocked_stores _ _ _ _ _ _
    · exact blocked_stores _ _ _ _ _ _

theorem krnlReleaseMutex_stores (mutexId : Int) (k : Context) :
    SameStores s (s.krnlReleaseMutex mutexId k) := by
  unfold krnlReleaseMutex
  split
  · rfl
  · refine withCurrent_elim rfl fun node _ => ?_
    dsimp only
    refine refused_elim rfl fun _ => ?_
    split
    · split
      · rfl
      · next t ht => exact Eq.trans (b := t.stores) rfl (Eq.trans (handMutexOver_stores ht) rfl)
    · rfl

theorem resetMutex_stores (mutexId processId : Int) :
    SameStores s (s.resetMutex mutexId processId) := by
  unfold resetMutex
  refine withCurrent_elim rfl fun currentNode _ => ?_
  dsimp only
  refine refused_elim rfl fun _ => ?_
  split
  · rfl
  · refine refused_elim rfl fun _ => ?_
    split
    · rfl
    · refine refused_elim rfl fun _ => refused_elim rfl fun _ => ?_
      split
      · rfl
      · next t ht => exact Eq.trans (b := t.stores) rfl (resetOwnedMutex_stores ht)

theorem createMutex_stores (mutexName : Name) (mutexPriority queuingDiscipline : Int) :
    SameStores s (s.createMutex mutexName mutexPriority queuingDiscipline) := by
  unfold createMutex
  refine refused_elim rfl fun _ => refused_elim rfl fun _ => refused_elim rfl fun _ => ?_
  split
  · rfl
  · exact refused_elim rfl fun _ => rfl

theorem startPartitionOs_stores (s : Pcb) : s.startPartitionOs.stores = s.stores :=
  createMutex_stores "PREEMPTION_LOCK".toList maxPriorityValue 0

theorem refreshLockLevel_stores (s : Pcb) (rc : ReturnCode) :
    SameStores s (s.refreshLockLevel rc) := by
  unfold refreshLockLevel
  cases s.findMutexById preemptionLockMutex <;> rfl

theorem thenRefreshLockLevel_stores (o : Outcome) : (thenRefreshLockLevel o).1.stores = o.1.stores := by
  unfold thenRefreshLockLevel
  split
  · rfl
  · exact refreshLockLevel_stores _ _

theorem lockPreemption_stores : SameStores s s.lockPreemption := by
  unfold lockPreemption
  refine withCurrent_elim rfl fun node _ => ?_
  split
  · rfl
  · exact (thenRefreshLockLevel_stores _).trans (krnlAcquireMutex_stores _ _ _)

theorem unlockPreemption_stores : SameStores s s.unlockPreemption := by
  unfold unlockPreemption
  refine withCurrent_elim rfl fun node _ => ?_
  split_ifs
  · rfl
  · rfl
  · exact (thenRefreshLockLevel_stores _).trans (krnlReleaseMutex_stores _ _)

/-! ## Resources -/

theorem createBlackboard_stores (name : Name) (maxMessageSize : Int) :
    Writes (fun x => { s.stores with blackboards := x }) (s.createBlackboard name maxMessageSize) := by
  have hret : ∀ rc, Writes (fun x => { s.stores with blackboards := x }) (s.ret rc) := fun rc => ⟨_, rfl⟩
  unfold createBlackboard
  refine refused_elim (hret _) fun _ => refused_elim (hret _) fun _ => refused_elim (hret _) fun _ => ?_
  exact refused_elim (hret _) fun _ => ⟨_, rfl⟩

theorem displayBlackboard_stores (blackboardId : Int) (messageAddr : Area) (length : Int) :
    Writes (fun x => { s.stores with blackboards := x })
      (s.displayBlackboard blackboardId messageAddr length) := by
  have hret : ∀ rc, Writes (fun x => { s.stores with blackboards := x }) (s.ret rc) := fun rc => ⟨_, rfl⟩
  unfold displayBlackboard
  split
  · exact hret _
  · next index _ =>
      dsimp only
      refine refused_elim (hret _) fun _ => refused_elim (hret _) fun _ => ?_
      generalize ht : ({ s.setBlackboard _ _ with res := _ } : Pcb) = t
      have hwritten : ∃ x, (t.wakeAll (.blackboard index)).stores = { s.stores with blackboards := x } := by
        rw [wakeAll_stores, ← ht]
        exact ⟨_, rfl⟩
      split
      · exact withCurrent_elim (P := Writes _) hwritten fun node _ => .yield hwritten _ _
      · exact hwritten

theorem readBlackboard_stores (blackboardId timeOut : Int) :
    SameStores s (s.readBlackboard blackboardId timeOut) := by
  unfold readBlackboard
  split
  · rfl
  · refine refused_elim rfl fun _ => withCurrent_elim rfl fun node _ => ?_
    dsimp only
    refine .ite rfl (refused_elim rfl fun _ => refused_elim rfl fun _ => ?_)
    exact .ite (blocked_stores _ _ _ _ _ _) (blocked_stores _ _ _ _ _ _)

theorem clearBlackboard_stores (blackboardId : Int) :
    Writes (fun x => { s.stores with blackboards := x }) (s.clearBlackboard blackboardId) := by
  unfold clearBlackboard
  split
  · exact ⟨_, rfl⟩
  · exact ⟨_, rfl⟩

theorem createBuffer_stores (name : Name) (maxMessageSize maxNbMessage discipline : Int) :
    Writes (fun x => { s.stores with buffers := x })
      (s.createBuffer name maxMessageSize maxNbMessage discipline) := by
  have hret : ∀ rc, Writes (fun x => { s.stores with buffers := x }) (s.ret rc) := fun rc => ⟨_, rfl⟩
  unfold createBuffer
  refine refused_elim (hret _) fun _ => refused_elim (hret _) fun _ => refused_elim (hret _) fun _ => ?_
  refine refused_elim (hret _) fun _ => ?_
  split
  · exact hret _
  · exact refused_elim (hret _) fun _ => ⟨_, rfl⟩

theorem storeMessage_stores (s : Pcb) (index : Nat) (messageAddr : Area) (length : Int) :
    ∃ x, (s.storeMessage index messageAddr length).stores = { s.stores with buffers := x } := ⟨_, rfl⟩

theorem sendBuffer_stores (bufferId : Int) (messageAddr : Area) (length timeOut : Int) :
    Writes (fun x => { s.stores with buffers := x }) (s.sendBuffer bufferId messageAddr length timeOut) := by
  have hret : ∀ rc, Writes (fun x => { s.stores with buffers := x }) (s.ret rc) := fun rc => ⟨_, rfl⟩
  have hsame : ∀ o, SameStores s o → Writes (fun x => { s.stores with buffers := x }) o :=
    fun o ho => ⟨_, ho⟩
  unfold sendBuffer
  split
  · exact hret _
  · next index _ =>
      dsimp only
      refine refused_elim (hret _) fun _ => refused_elim (hret _) fun _ => refused_elim (hret _) fun _ => ?_
      refine withCurrent_elim ⟨_, rfl⟩ fun node _ => ?_
      split
      · split
        · exact ⟨_, rfl⟩
        · next reader t hwake =>
            have hemit : ∀ f o o', ∃ x, (((t.modProc reader f).emit o).emit o').stores
                = { s.stores with buffers := x } := by
              intro f o o'
              rw [← wakeFirst_stores hwake]
              exact ⟨_, rfl⟩
            exact .yield (hemit _ _ _) _ _
      · refine refused_elim (hret _) fun _ => refused_elim (hret _) fun _ => hsame _ ?_
        exact .ite (blocked_stores (s := s.modProc node.data _) _ _ _ _ _ _)
          (blocked_stores (s := s.modProc node.data _) _ _ _ _ _ _)

theorem receiveBuffer_stores (bufferId timeOut : Int) (messageAddr : Area) :
    Writes (fun x => { s.stores with buffers := x }) (s.receiveBuffer bufferId timeOut messageAddr) := by
  have hret : ∀ rc, Writes (fun x => { s.stores with buffers := x }) (s.ret rc) := fun rc => ⟨_, rfl⟩
  have hsame : ∀ o, SameStores s o → Writes (fun x => { s.stores with buffers := x }) o :=
    fun o ho => ⟨_, ho⟩
  unfold receiveBuffer
  split
  · exact hret _
  · next index _ =>
      refine refused_elim (hret _) fun _ => withCurrent_elim ⟨_, rfl⟩ fun node _ => ?_
      dsimp only
      split
      · split
        · exact ⟨_, rfl⟩
        · next writer t hwake =>
            have hwoken : t.stores = { s.stores with
                buffers := (s.takeMessage index node.data).stores.buffers } := wakeFirst_stores hwake
            obtain ⟨x, hx⟩ := storeMessage_stores t index (t.proc writer).waitingMessage
              (t.proc writer).waitingMessageSize
            refine .yield ⟨x, ?_⟩ _ _
            rw [hx, hwoken]
      · refine refused_elim (hret _) fun _ => refused_elim (hret _) fun _ => hsame _ ?_
        exact .ite (blocked_stores (s := s.modProc node.data _) _ _ _ _ _ _)
          (blocked_stores (s := s.modProc node.data _) _ _ _ _ _ _)

theorem createSemaphore_stores (name : Name) (currentValue maximumValue discipline : Int) :
    Writes (fun x => { s.stores with semaphores := x })
      (s.createSemaphore name currentValue maximumValue discipline) := by
  have hret : ∀ rc, Writes (fun x => { s.stores with semaphores := x }) (s.ret rc) := fun rc => ⟨_, rfl⟩
  unfold createSemaphore
  refine refused_elim (hret _) fun _ => refused_elim (hret _) fun _ => refused_elim (hret _) fun _ => ?_
  refine refused_elim (hret _) fun _ => refused_elim (hret _) fun _ => ?_
  split
  · exact hret _
  · exact refused_elim (hret _) fun _ => ⟨_, rfl⟩

theorem waitSemaphore_stores (semaphoreId timeOut : Int) :
    Writes (fun x => { s.stores with semaphores := x }) (s.waitSemaphore semaphoreId timeOut) := by
  have hret : ∀ rc, Writes (fun x => { s.stores with semaphores := x }) (s.ret rc) := fun rc => ⟨_, rfl⟩
  have hsame : ∀ o, SameStores s o → Writes (fun x => { s.stores with semaphores := x }) o :=
    fun o ho => ⟨_, ho⟩
  unfold waitSemaphore
  split
  · exact hret _
  · refine refused_elim (hret _) fun _ => withCurrent_elim ⟨_, rfl⟩ fun node _ => ?_
    dsimp only
    split
    · exact ⟨_, rfl⟩
    · refine refused_elim (hret _) fun _ => refused_elim (hret _) fun _ => hsame _ ?_
      exact .ite (blocked_stores _ _ _ _ _ _) (blocked_stores _ _ _ _ _ _)

theorem signalSemaphore_stores (semaphoreId : Int) :
    Writes (fun x => { s.stores with semaphores := x }) (s.signalSemaphore semaphoreId) := by
  have hret : ∀ rc, Writes (fun x => { s.stores with semaphores := x }) (s.ret rc) := fun rc => ⟨_, rfl⟩
  unfold signalSemaphore
  split
  · exact hret _
  · refine refused_elim (hret _) fun _ => ?_
    split
    · exact ⟨_, rfl⟩
    · next p t hwake =>
        have hwoken : ∃ x, t.stores = { s.stores with semaphores := x } := ⟨_, wakeFirst_stores hwake⟩
        exact withCurrent_elim (P := Writes _) hwoken fun node _ => .yield hwoken _ _

theorem createEvent_stores (name : Name) :
    Writes (fun x => { s.stores with events := x }) (s.createEvent name) := by
  have hret : ∀ rc, Writes (fun x => { s.stores with events := x }) (s.ret rc) := fun rc => ⟨_, rfl⟩
  unfold createEvent
  refine refused_elim (hret _) fun _ => refused_elim (hret _) fun _ => refused_elim (hret _) fun _ => ?_
  exact ⟨_, rfl⟩

theorem setEvent_stores (eventId : Int) :
    Writes (fun x => { s.stores with events := x }) (s.setEvent eventId) := by
  unfold setEvent
  split
  · exact ⟨_, rfl⟩
  · next index _ =>
      dsimp only
      split
      · exact ⟨_, rfl⟩
      · refine withCurrent_elim ⟨_, rfl⟩ fun node _ => .yield ?_ _ _
        rw [wakeAll_stores]
        exact ⟨_, rfl⟩

theorem resetEvent_stores (eventId : Int) :
    Writes (fun x => { s.stores with events := x }) (s.resetEvent eventId) := by
  unfold resetEvent
  split
  · exact ⟨_, rfl⟩
  · exact ⟨_, rfl⟩

theorem waitEvent_stores (eventId timeOut : Int) : SameStores s (s.waitEvent eventId timeOut) := by
  unfold waitEvent
  split
  · rfl
  · refine refused_elim rfl fun _ => withCurrent_elim rfl fun node _ => ?_
    dsimp only
    refine refused_elim rfl fun _ => refused_elim rfl fun _ => refused_elim rfl fun _ => ?_
    exact .ite (blocked_stores _ _ _ _ _ _) (blocked_stores _ _ _ _ _ _)

theorem finishAperiodicWaitEvent_stores (p : Nat) : SameStores s (s.finishAperiodicWaitEvent p) := by
  unfold finishAperiodicWaitEvent
  exact refused_elim rfl fun _ => .ret (modProc_stores _ _ _) _

theorem aperiodicWaitEvent_stores (eventId : Int) : SameStores s (s.aperiodicWaitEvent eventId) := by
  unfold aperiodicWaitEvent
  refine withCurrent_elim rfl fun node _ => ?_
  dsimp only
  refine refused_elim rfl fun _ => ?_
  split
  · rfl
  · refine refused_elim rfl fun _ => refused_elim rfl fun _ => .ite ?_ ?_
    · exact finishAperiodicWaitEvent_stores (s := s.modProc node.data _) _
    · exact blocked_stores (s := s.modProc node.data _) _ _ _ _ _ _

/-! ## Ports -/

theorem createSamplingPort_stores (name : Name) (maxMessageSize portDirection refreshPeriod : Int) :
    Writes (fun x => { s.stores with samplingPorts := x })
      (s.createSamplingPort name maxMessageSize portDirection refreshPeriod) := by
  have hret : ∀ rc, Writes (fun x => { s.stores with samplingPorts := x }) (s.ret rc) := fun rc => ⟨_, rfl⟩
  unfold createSamplingPort
  refine refused_elim (hret _) fun _ => ?_
  split
  · exact hret _
  · refine refused_elim (hret _) fun _ => refused_elim (hret _) fun _ => ?_
    split
    · exact hret _
    · refine refused_elim (hret _) fun _ => refused_elim (hret _) fun _ => ⟨_, rfl⟩

theorem createQueuingPort_stores (name : Name)
    (maxMessageSize maxNbMessage portDirection discipline : Int) :
    Writes (fun x => { s.stores with queuingPorts := x })
      (s.createQueuingPort name maxMessageSize maxNbMessage portDirection discipline) := by
  have hret : ∀ rc, Writes (fun x => { s.stores with queuingPorts := x }) (s.ret rc) := fun rc => ⟨_, rfl⟩
  unfold createQueuingPort
  refine refused_elim (hret _) fun _ => ?_
  split
  · exact hret _
  · refine refused_elim (hret _) fun _ => refused_elim (hret _) fun _ => refused_elim (hret _) fun _ => ?_
    split
    · exact refused_elim (hret _) fun _ => ⟨_, rfl⟩
    · exact hret _

theorem writeSamplingMessage_stores (samplingPortId : Int) (messageAddr : Area) (length : Int) :
    Writes (fun x => { s.stores with krnl := x })
      (s.writeSamplingMessage samplingPortId messageAddr length) := by
  have hret : ∀ rc, Writes (fun x => { s.stores with krnl := x }) (s.ret rc) := fun rc => ⟨_, rfl⟩
  unfold writeSamplingMessage
  split
  · exact hret _
  · refine refused_elim (hret _) fun _ => refused_elim (hret _) fun _ => refused_elim (hret _) fun _ => ?_
    split
    · exact ⟨_, rfl⟩
    · exact ⟨_, rfl⟩

theorem readSamplingMessage_stores (samplingPortId : Int) :
    Writes (fun x => { s.stores with samplingPorts := x }) (s.readSamplingMessage samplingPortId) := by
  have hret : ∀ rc, Writes (fun x => { s.stores with samplingPorts := x }) (s.ret rc) := fun rc => ⟨_, rfl⟩
  unfold readSamplingMessage
  split
  · exact hret _
  · refine refused_elim (hret _) fun _ => ?_
    split
    · exact ⟨_, rfl⟩
    · exact ⟨_, rfl⟩

theorem takeFromChannel_stores (s : Pcb) (c : Nat) :
    Writes (fun x => { s.stores with krnl := x }) (s.takeFromChannel c) := ⟨_, rfl⟩

theorem sendQueuingMessage_stores (queuingPortId : Int) (messageAddr : Area) (length timeOut : Int) :
    Writes (fun x => { s.stores with krnl := x })
      (s.sendQueuingMessage queuingPortId messageAddr length timeOut) := by
  have hret : ∀ rc, Writes (fun x => { s.stores with krnl := x }) (s.ret rc) := fun rc => ⟨_, rfl⟩
  unfold sendQueuingMessage
  split
  · exact hret _
  · refine refused_elim (hret _) fun _ => refused_elim (hret _) fun _ => refused_elim (hret _) fun _ => ?_
    refine refused_elim (hret _) fun _ => withCurrent_elim ⟨_, rfl⟩ fun node _ => ?_
    dsimp only
    split
    · exact ⟨_, rfl⟩
    · split
      · exact ⟨_, rfl⟩
      · refine refused_elim (hret _) fun _ => refused_elim (hret _) fun _ => ?_
        exact ⟨_, blocked_stores _ _ _ _ _ _⟩

theorem receiveQueuingMessage_stores (queuingPortId timeOut : Int) :
    Writes (fun x => { s.stores with krnl := x }) (s.receiveQueuingMessage queuingPortId timeOut) := by
  have hret : ∀ rc, Writes (fun x => { s.stores with krnl := x }) (s.ret rc) := fun rc => ⟨_, rfl⟩
  unfold receiveQueuingMessage
  split
  · exact hret _
  · refine refused_elim (hret _) fun _ => refused_elim (hret _) fun _ => ?_
    refine withCurrent_elim ⟨_, rfl⟩ fun node _ => ?_
    dsimp only
    split
    · exact ⟨_, rfl⟩
    · split
      · exact takeFromChannel_stores s _
      · refine refused_elim (hret _) fun _ => refused_elim (hret _) fun _ => ?_
        exact ⟨_, blocked_stores _ _ _ _ _ _⟩

theorem clearQueuingPort_stores (queuingPortId : Int) :
    Writes (fun x => { s.stores with krnl := x }) (s.clearQueuingPort queuingPortId) := by
  have hret : ∀ rc, Writes (fun x => { s.stores with krnl := x }) (s.ret rc) := fun rc => ⟨_, rfl⟩
  unfold clearQueuingPort
  split
  · exact hret _
  · refine refused_elim (hret _) fun _ => ?_
    split
    · exact ⟨_, rfl⟩
    · exact ⟨_, rfl⟩

/-! ## Errors, creation and modes -/

theorem hmWriteError_stores (s : Pcb) (error : ErrorStatus) :
    (s.hmWriteError error).stores = { s.stores with errors := (s.hmWriteError error).errorListCb } := rfl

theorem hmRaisePartitionError_stores (s : Pcb) (error : ErrorStatus) :
    (s.hmRaisePartitionError error).stores = s.stores := by
  unfold hmRaisePartitionError
  split
  · split
    · rfl
    · exact modProc_stores _ _ _
  · rfl

theorem wakeErrorHandler_stores {p : Nat} (h : s.wakeErrorHandler p = some s') : s'.stores = s.stores := by
  unfold wakeErrorHandler at h
  split at h
  · cases h
    exact modProc_stores _ _ _
  · cases h

theorem raiseToErrorHandler_stores (current : Nat) (error : ErrorStatus) :
    (s.raiseToErrorHandler current error).1.stores
      = { s.stores with errors := (s.hmWriteError error).errorListCb } := by
  unfold raiseToErrorHandler
  dsimp only
  split
  · rfl
  · split
    · rfl
    · next t ht => exact Eq.trans (b := t.stores) rfl (wakeErrorHandler_stores ht)

theorem raiseApplicationError_stores (errorCode : ErrorCode) (messageAddr : Area) (length : Int) :
    Writes (fun x => { s.stores with errors := x })
      (s.raiseApplicationError errorCode messageAddr length) := by
  have hret : ∀ rc, Writes (fun x => { s.stores with errors := x }) (s.ret rc) := fun rc => ⟨_, rfl⟩
  unfold raiseApplicationError
  refine withCurrent_elim ⟨_, rfl⟩ fun node _ => ?_
  dsimp only
  refine refused_elim (hret _) fun _ => refused_elim (hret _) fun _ => ?_
  split
  · exact ⟨_, hmRaisePartitionError_stores s _⟩
  · split
    · exact ⟨_, rfl⟩
    · exact ⟨_, raiseToErrorHandler_stores _ _⟩

theorem getErrorStatus_stores : Writes (fun x => { s.stores with errors := x }) s.getErrorStatus := by
  have hret : ∀ rc, Writes (fun x => { s.stores with errors := x }) (s.ret rc) := fun rc => ⟨_, rfl⟩
  unfold getErrorStatus
  refine withCurrent_elim ⟨_, rfl⟩ fun node _ => refused_elim (hret _) fun _ => refused_elim (hret _) fun _ => ?_
  dsimp only
  split
  · exact ⟨_, rfl⟩
  · next p t hwake =>
      refine ⟨(t.hmWriteError (t.proc p).pendingError).errorListCb, ?_⟩
      rw [hmWriteError_stores, wakeFirst_stores hwake]
      rfl

theorem hmRaiseError_stores (errorCode : ErrorCode) (messageAddr : Area) (length : Int) :
    Writes (fun x => { s.stores with errors := x }) (s.hmRaiseError errorCode messageAddr length) := by
  unfold hmRaiseError
  refine withCurrent_elim ⟨_, rfl⟩ fun node _ => ?_
  dsimp only
  split
  · exact ⟨_, hmRaisePartitionError_stores (s.modProc node.data _) _⟩
  · split
    · exact ⟨_, hmRaisePartitionError_stores (s.modProc node.data _) _⟩
    · next errorProcess _ _ =>
        generalize ht : hmWriteError _ _ = t
        have hwritten : t.stores = { s.stores with errors := t.errorListCb } := by
          rw [← ht]
          rfl
        refine ⟨t.errorListCb, ?_⟩
        cases hwake : t.wakeErrorHandler errorProcess with
        | none => exact hwritten
        | some u => exact (wakeErrorHandler_stores hwake).trans hwritten

theorem createProcess_stores (attributes : ProcessAttribute) :
    Writes (fun x => { s.stores with allocation := x }) (s.createProcess attributes) := by
  have hret : ∀ rc, Writes (fun x => { s.stores with allocation := x }) (s.ret rc) := fun rc => ⟨_, rfl⟩
  unfold createProcess
  refine refused_elim (hret _) fun _ => refused_elim (hret _) fun _ => refused_elim (hret _) fun _ => ?_
  refine refused_elim (hret _) fun _ => refused_elim (hret _) fun _ => refused_elim (hret _) fun _ => ?_
  refine refused_elim (hret _) fun _ => refused_elim (hret _) fun _ => refused_elim (hret _) fun _ => ?_
  exact refused_elim (hret _) fun _ => ⟨_, rfl⟩

theorem createErrorHandler_stores (stackSize : Nat) :
    Writes (fun x : (Nat × Nat × Nat) × ErrorList => { s.stores with allocation := x.1, errors := x.2 })
      (s.createErrorHandler stackSize) := by
  have hret : ∀ rc, Writes (fun x : (Nat × Nat × Nat) × ErrorList =>
      { s.stores with allocation := x.1, errors := x.2 }) (s.ret rc) :=
    fun rc => ⟨(s.stores.allocation, s.stores.errors), rfl⟩
  unfold createErrorHandler
  refine refused_elim (hret _) fun _ => refused_elim (hret _) fun _ => refused_elim (hret _) fun _ => ?_
  exact refused_elim (hret _) fun _ => ⟨(_, _), rfl⟩

theorem setPartitionMode_stores (operatingMode : Int) :
    Writes (fun x : (Nat × Nat × Nat) × Krnl => { s.stores with allocation := x.1, krnl := x.2 })
      (s.setPartitionMode operatingMode) := by
  have hret : ∀ rc, Writes (fun x : (Nat × Nat × Nat) × Krnl =>
      { s.stores with allocation := x.1, krnl := x.2 }) (s.ret rc) :=
    fun rc => ⟨(s.stores.allocation, s.stores.krnl), rfl⟩
  unfold setPartitionMode
  split
  · exact hret _
  · next mode _ =>
      refine refused_elim (hret _) fun _ => refused_elim (hret _) fun _ => ?_
      cases mode with
      | idle => exact ⟨(_, _), rfl⟩
      | coldStart => exact ⟨(_, _), rfl⟩
      | warmStart => exact ⟨(_, _), rfl⟩
      | normal =>
          refine ⟨(s.stores.allocation, s.stores.krnl), ?_⟩
          unfold startProcesses
          dsimp only
          rw [forEachProcess_eq]
          split <;> rfl

/-! ## Steps -/

theorem Writes.after {β : Type} {f : β → Stores} {o : Outcome} {service : Service} (h : Writes f o)
    (hf : ∀ x, s.stores.after (f x) service = f x) :
    o.1.stores = s.stores.after o.1.stores service := by
  obtain ⟨x, hx⟩ := h
  rw [hx, hf]

/-- A service writes its own stores only. -/
theorem exec_stores (s : Pcb) (service : Service) :
    (s.exec service).1.stores = s.stores.after (s.exec service).1.stores service := by
  cases service with
  | createProcess attributes => exact (createProcess_stores attributes).after fun _ => rfl
  | initializeProcessCoreAffinity processId core => exact initializeProcessCoreAffinity_stores _ _
  | setPriority processId priority => exact setPriority_stores _ _
  | suspendSelf timeOut => exact suspendSelf_stores _
  | suspend processId => exact suspend_stores _
  | resume processId => exact resume_stores _
  | stopSelf => exact stopSelf_stores
  | stop processId => exact stop_stores _
  | start processId => exact start_stores _
  | delayedStart processId delayTime => exact delayedStart_stores _ _
  | lockPreemption => exact lockPreemption_stores
  | unlockPreemption => exact unlockPreemption_stores
  | timedWait delayTime => exact timedWait_stores _
  | periodicWait => exact periodicWait_stores
  | replenish budgetTime => exact replenish_stores _
  | createBlackboard name size => exact (createBlackboard_stores name size).after fun _ => rfl
  | displayBlackboard blackboardId messageAddr length =>
      exact (displayBlackboard_stores blackboardId messageAddr length).after fun _ => rfl
  | readBlackboard blackboardId timeOut => exact readBlackboard_stores _ _
  | clearBlackboard blackboardId => exact (clearBlackboard_stores blackboardId).after fun _ => rfl
  | createBuffer name size number discipline =>
      exact (createBuffer_stores name size number discipline).after fun _ => rfl
  | sendBuffer bufferId messageAddr length timeOut =>
      exact (sendBuffer_stores bufferId messageAddr length timeOut).after fun _ => rfl
  | receiveBuffer bufferId timeOut messageAddr =>
      exact (receiveBuffer_stores bufferId timeOut messageAddr).after fun _ => rfl
  | createSemaphore name value maximum discipline =>
      exact (createSemaphore_stores name value maximum discipline).after fun _ => rfl
  | waitSemaphore semaphoreId timeOut => exact (waitSemaphore_stores semaphoreId timeOut).after fun _ => rfl
  | signalSemaphore semaphoreId => exact (signalSemaphore_stores semaphoreId).after fun _ => rfl
  | createEvent name => exact (createEvent_stores name).after fun _ => rfl
  | setEvent eventId => exact (setEvent_stores eventId).after fun _ => rfl
  | resetEvent eventId => exact (resetEvent_stores eventId).after fun _ => rfl
  | waitEvent eventId timeOut => exact waitEvent_stores _ _
  | aperiodicWaitEvent eventId => exact aperiodicWaitEvent_stores _
  | createMutex name priority discipline => exact createMutex_stores _ _ _
  | acquireMutex mutexId timeOut => exact refused_elim (P := SameStores s) rfl fun _ => krnlAcquireMutex_stores _ _ _
  | releaseMutex mutexId => exact refused_elim (P := SameStores s) rfl fun _ => krnlReleaseMutex_stores _ _
  | resetMutex mutexId processId => exact resetMutex_stores _ _
  | createSamplingPort name size direction period =>
      exact (createSamplingPort_stores name size direction period).after fun _ => rfl
  | writeSamplingMessage portId messageAddr length =>
      exact (writeSamplingMessage_stores portId messageAddr length).after fun _ => rfl
  | readSamplingMessage portId => exact (readSamplingMessage_stores portId).after fun _ => rfl
  | createQueuingPort name size number direction discipline =>
      exact (createQueuingPort_stores name size number direction discipline).after fun _ => rfl
  | sendQueuingMessage portId messageAddr length timeOut =>
      exact (sendQueuingMessage_stores portId messageAddr length timeOut).after fun _ => rfl
  | receiveQueuingMessage portId timeOut =>
      exact (receiveQueuingMessage_stores portId timeOut).after fun _ => rfl
  | clearQueuingPort portId => exact (clearQueuingPort_stores portId).after fun _ => rfl
  | createErrorHandler stackSize => exact (createErrorHandler_stores stackSize).after fun _ => rfl
  | raiseApplicationError errorCode messageAddr length =>
      exact (raiseApplicationError_stores errorCode messageAddr length).after fun _ => rfl
  | getErrorStatus => exact getErrorStatus_stores.after fun _ => rfl
  | setPartitionMode mode => exact (setPartitionMode_stores mode).after fun _ => rfl

theorem wokenFirst_stores (s : Pcb) (q : WaitList) : (s.wokenFirst q).stores = s.stores := by
  rcases wokenFirst_cases s q with ⟨-, h⟩ | ⟨p, h⟩
  · rw [h]
  · exact wakeFirst_stores h

theorem checkPortsFrom_stores (n index : Nat) (s : Pcb) : (checkPortsFrom index n s).stores = s.stores := by
  induction n generalizing index s with
  | zero => rfl
  | succ n ih =>
      unfold checkPortsFrom
      split
      · rfl
      · rw [ih, checkPort_eq]
        split_ifs
        · rw [wokenFirst_stores, wokenFirst_stores]
        · exact wokenFirst_stores _ _
        · exact wokenFirst_stores _ _
        · rfl

/-- The tick and the scheduler write none of the stores. -/
theorem dispatched_stores (s : Pcb) : s.dispatched.stores = s.stores := by
  have htick : (if s.krnl.ticks ≠ s.lastTick then s.newTick else s).stores = s.stores := by
    refine ite_stores ?_ rfl
    unfold newTick checkAvailableResourcesOnPartitionPort arincTimeUpdatePartition
    rw [checkPortsFrom_stores, forEachProcess_stores, forEachProcess_stores]
    rfl
  unfold dispatched
  obtain ⟨proc, current, heq, -, -⟩ :=
    processSchedule_eq (if s.krnl.ticks ≠ s.lastTick then s.newTick else s)
  rw [heq]
  exact htick

/-- `x`, with the parts of `y` that the rest of a service writes. -/
def Stores.afterResume (x y : Stores) : Context → Stores
  | .receiveBufferDone _ _ _ | .receiveBuffer _ _ => { x with buffers := y.buffers }
  | .sendQueuingMessage _ _ _ _ | .receiveQueuingMessage _ _ => { x with krnl := y.krnl }
  | .raiseApplicationErrorFull _ => { x with errors := y.errors }
  | _ => x

/-- The rest of a service writes the history, the channels or the error list. -/
theorem resumeContext_stores (s : Pcb) (p : Nat) : (s.resumeContext p).1.stores
    = s.stores.afterResume (s.resumeContext p).1.stores (s.proc p).context := by
  have hfinish : ∀ timed, SameStores s (s.finishWait p timed) := fun timed => .ite rfl rfl
  unfold resumeContext
  cases (s.proc p).context with
  | entry | setPriority | resume | start | delayedStart | timedWait | periodicWait
  | displayBlackboard | sendBufferDone | signalSemaphore | setEvent | releaseMutex | resetMutex
  | raiseApplicationError => rfl
  | suspendSelf => exact hfinish true
  | stop => exact SameStores.ite rfl rfl
  | lockPreemption | unlockPreemption => exact refreshLockLevel_stores s _
  | waitSemaphore timed | waitEvent timed | acquireMutex timed | sendBuffer timed =>
      exact hfinish timed
  | readBlackboard index timed => exact SameStores.ite rfl rfl
  | receiveBufferDone index message length => rfl
  | receiveBuffer index timed =>
      dsimp only
      split <;> rfl
  | aperiodicWaitEvent => exact finishAperiodicWaitEvent_stores p
  | sendQueuingMessage index messageAddr length timeOut =>
      dsimp only
      refine refused_elim (P := fun o => o.1.stores = { s.stores with krnl := o.1.stores.krnl }) rfl fun _ => ?_
      split
      · rfl
      · split <;> rfl
  | receiveQueuingMessage index timeOut =>
      dsimp only
      refine refused_elim (P := fun o => o.1.stores = { s.stores with krnl := o.1.stores.krnl }) rfl fun _ => ?_
      split
      · rfl
      · split <;> rfl
  | raiseApplicationErrorFull error =>
      dsimp only
      rw [raiseToErrorHandler_stores]
      rfl

/-- Where the process that a turn of the loop dispatches resumes. -/
def resumedContext (s : Pcb) : Option Context :=
  if s.status.operatingMode = .coldStart ∨ s.status.operatingMode = .warmStart then none
  else s.dispatched.processCurrent.bind fun node =>
    if s.dispatched.status.operatingMode = .normal then some (s.dispatched.proc node.data).context else none

theorem resumedContext_eq_some {k : Context} (h : s.resumedContext = some k) :
    ∃ node, s.dispatched.processCurrent = some node ∧ (s.dispatched.proc node.data).context = k
      ∧ s.partitionOsLoop = { s.dispatched with ctl := .process }.resumeContext node.data := by
  unfold resumedContext at h
  split at h
  · cases h
  · next hstarting =>
      obtain ⟨node, hnode, hk⟩ := Option.bind_eq_some_iff.mp h
      obtain ⟨hmode, hk⟩ := Option.ite_none_right_eq_some.mp hk
      refine ⟨node, hnode, Option.some.inj hk, ?_⟩
      rw [partitionOsLoop_eq, if_neg hstarting, hnode]
      exact if_pos hmode

/-- A turn of the loop writes what the service it resumes writes. -/
theorem partitionOsLoop_stores (s : Pcb) : s.partitionOsLoop.1.stores =
    match s.resumedContext with
    | none => s.stores
    | some k => s.stores.afterResume s.partitionOsLoop.1.stores k := by
  have hdispatched := dispatched_stores s
  rw [partitionOsLoop_eq]
  unfold resumedContext
  split
  · rfl
  · cases hcurrent : s.dispatched.processCurrent with
    | none => exact hdispatched
    | some node =>
        dsimp only [Option.bind_some]
        split
        · have hresume := resumeContext_stores { s.dispatched with ctl := .process } node.data
          rw [show ({ s.dispatched with ctl := .process } : Pcb).stores = s.stores from hdispatched] at hresume
          exact hresume
        · exact hdispatched

/-- `x`, with the parts of `y` that an action writes. -/
def Stores.afterAction (x y : Stores) : Action → Stores
  | .call service => x.after y service
  | .fault _ _ _ => { x with errors := y.errors }
  | .mainReturn => x
  | .loop => { x with buffers := y.buffers, errors := y.errors, krnl := y.krnl }
  | .kernel _ _ _ _ _ _ => { x with krnl := y.krnl }

/-- A step writes the stores of its action only. -/
theorem step_stores {e : Action} (hstep : s.step e = some s') :
    s'.stores = s.stores.afterAction s'.stores e := by
  cases e with
  | call service =>
      obtain ⟨-, rfl⟩ := call_eq_some hstep
      exact exec_stores s service
  | loop =>
      obtain ⟨-, rfl⟩ := loop_eq_some hstep
      have hloop := partitionOsLoop_stores s
      generalize s.partitionOsLoop.1.stores = y at hloop ⊢
      cases hresumed : s.resumedContext with
      | none =>
          rw [hresumed] at hloop
          rw [hloop]
          rfl
      | some k =>
          rw [hresumed] at hloop
          dsimp only at hloop
          rw [hloop]
          cases k <;> rfl
  | fault errorCode messageAddr length =>
      obtain ⟨o, ho, rfl⟩ := Option.map_eq_some_iff.mp hstep
      simp only [stepOutcome, Option.ite_none_right_eq_some] at ho
      cases Option.some.inj ho.2
      obtain ⟨x, hx⟩ := hmRaiseError_stores (s := s) errorCode messageAddr length
      rw [hx]
      rfl
  | mainReturn =>
      obtain ⟨o, ho, rfl⟩ := Option.map_eq_some_iff.mp hstep
      simp only [stepOutcome, Option.ite_none_right_eq_some] at ho
      cases Option.some.inj ho.2
      rfl
  | kernel uptime ticks windowsIdx majorFrameCount samplingChannels queuingChannels =>
      obtain ⟨o, ho, rfl⟩ := Option.map_eq_some_iff.mp hstep
      simp only [stepOutcome, Option.ite_none_right_eq_some] at ho
      cases Option.some.inj ho.2
      rfl

/-- What holds of the stores at the start and is kept by every step holds after every run. -/
theorem storesKept_of_run {I : Pcb → Prop} (period identifier : Int) (conf : PartitionConf) (maxErrors : Nat)
    (krnl : Krnl) (memory : Nat → Process) (lastTick : Nat) {es : List Action}
    (hrun : Transition.run step
      (partitionInit period identifier conf maxErrors krnl memory lastTick).startPartitionOs es = some s)
    (hcongr : ∀ s s' : Pcb, I s → s'.conf = s.conf → s'.stores = s.stores → I s')
    (hstep : ∀ (s : Pcb) e s', Sound s → I s → s.step e = some s' → I s')
    (hinit : I (partitionInit period identifier conf maxErrors krnl memory lastTick)) : I s := by
  have hstart := hcongr _ (partitionInit period identifier conf maxErrors krnl memory lastTick).startPartitionOs
    hinit (moves_conf (A := .all) (startPartitionOs_moves _)) (startPartitionOs_stores _)
  exact (Transition.run_invariant (I := fun s => Sound s ∧ I s) hrun
    (fun s e s' h hs => ⟨h.1.step hs, hstep s e s' h.1 h.2 hs⟩)
    ⟨sound_startPartitionOs period identifier conf maxErrors krnl memory lastTick, hstart⟩).2

end Pcb

end UcxArinc
