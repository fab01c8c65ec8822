import UcxArinc.Library.Noninterference
import UcxArinc.Proofs.ModuleRuns

set_option autoImplicit false

/-! # What a partition sees of the others

The partitions share the channels, the clock, the tables and one flag that asks for an idle window. A service
that does not reach the channels is the same whatever they hold; one that does reaches the channel of one of
the partition's ports. -/

namespace UcxArinc

/-- What others may have left in the kernel memory. -/
structure Others where
  samplingChannels : Nat → SamplingChannel
  queuingChannels : Nat → QueuingChannel
  idleCurrentPartition : Bool

/-- The kernel memory with that in it. -/
def Krnl.withOthers (k : Krnl) (x : Others) : Krnl :=
  { k with
    samplingChannels := x.samplingChannels
    queuingChannels := x.queuingChannels
    moduleScheduler := { k.moduleScheduler with idleCurrentPartition := x.idleCurrentPartition } }

namespace Pcb

variable {s t : Pcb} {x : Others}

/-- The state with that in the kernel memory. -/
def withOthers (s : Pcb) (x : Others) : Pcb := { s with krnl := s.krnl.withOthers x }

/-- An outcome with that in the kernel memory. -/
def outcomeWith (o : Outcome) (x : Others) : Outcome := (o.1.withOthers x, o.2)

/-! ## Parts of services -/

theorem modProc_withOthers (p : Nat) (f : Process → Process) :
    (s.withOthers x).modProc p f = (s.modProc p f).withOthers x := rfl

theorem setCurrent_withOthers (node : Option Node) :
    (s.withOthers x).setCurrent node = (s.setCurrent node).withOthers x := rfl

theorem hmWriteError_withOthers (error : ErrorStatus) :
    (s.withOthers x).hmWriteError error = (s.hmWriteError error).withOthers x := rfl

theorem takeMutexBack_withOthers (index p : Nat) (node : Node) : (s.withOthers x).takeMutexBack index p node
    = ((s.takeMutexBack index p node).1.withOthers x, (s.takeMutexBack index p node).2) := rfl

/-- A check that does not look at the channels. -/
theorem refused_withOthers {p : Prop} [Decidable p] {rc : ReturnCode} {o o' : Outcome} (h : o' = outcomeWith o x) :
    (if p then (s.withOthers x).ret rc else o') = outcomeWith (if p then s.ret rc else o) x := by
  by_cases hp : p
  · rw [if_pos hp, if_pos hp]
    rfl
  · rw [if_neg hp, if_neg hp, h]

theorem ite_withOthers {p : Prop} [Decidable p] {o₁ o₂ o₁' o₂' : Outcome} (h₁ : o₁' = outcomeWith o₁ x)
    (h₂ : o₂' = outcomeWith o₂ x) : (if p then o₁' else o₂') = outcomeWith (if p then o₁ else o₂) x := by
  by_cases hp : p
  · rw [if_pos hp, if_pos hp, h₁]
  · rw [if_neg hp, if_neg hp, h₂]

theorem withCurrent_withOthers {F F' : Node → Outcome} (ht : t = s.withOthers x)
    (h : ∀ node, F' node = outcomeWith (F node) x) : t.withCurrent F' = outcomeWith (s.withCurrent F) x := by
  unfold withCurrent
  rw [ht, show (s.withOthers x).processCurrent = s.processCurrent from rfl]
  cases s.processCurrent with
  | none => rfl
  | some node => exact h node

theorem withProcess_withOthers {processId : Int} {F F' : Node → Outcome} (h : ∀ node, F' node = outcomeWith (F node) x) :
    (s.withOthers x).withProcess processId F' = outcomeWith (s.withProcess processId F) x := by
  unfold withProcess
  rw [show (s.withOthers x).isProcessIdExisted processId = s.isProcessIdExisted processId from rfl]
  cases s.isProcessIdExisted processId with
  | none => rfl
  | some node => exact h node

theorem wakeFirst_withOthers (q : WaitList) (cancel : Bool) : (s.withOthers x).wakeFirst q cancel
    = (s.wakeFirst q cancel).map fun w => (w.1, w.2.withOthers x) := by
  unfold wakeFirst
  rw [show (s.withOthers x).waitingProcesses = s.waitingProcesses from rfl]
  cases s.waitingProcesses q with
  | nil => rfl
  | cons p rest => cases q <;> rfl

theorem wakeAll_withOthers (ht : t = s.withOthers x) (q : WaitList) :
    t.wakeAll q = (s.wakeAll q).withOthers x := by
  rw [ht]
  unfold wakeAll
  rw [show (s.withOthers x).waitingProcesses = s.waitingProcesses from rfl]
  clear ht
  generalize (s.waitingProcesses q).length = n
  induction n generalizing s with
  | zero => rfl
  | succ n ih =>
      unfold wakeAllAux
      rw [wakeFirst_withOthers]
      cases s.wakeFirst q true with
      | none => rfl
      | some w => exact ih

theorem forEachProcess_withOthers (visit : Process → Process) :
    (s.withOthers x).forEachProcess visit = (s.forEachProcess visit).withOthers x := by
  rw [forEachProcess_eq, forEachProcess_eq]
  rfl

theorem unlink_withOthers (p : Nat) (q : WaitList) : (s.withOthers x).unlink p q = (s.unlink p q).withOthers x := by
  unfold unlink
  rw [show (s.withOthers x).waitingProcesses = s.waitingProcesses from rfl]
  split
  · cases q <;> rfl
  · rfl

theorem leaveQueue_withOthers (p : Nat) (k : WaitKind) :
    leaveQueue p (s.withOthers x) k = (leaveQueue p s k).withOthers x := by
  unfold leaveQueue
  rw [show (s.withOthers x).proc = s.proc from rfl]
  cases (s.proc p).waiting k with
  | none => rfl
  | some i =>
      have hfold : ∀ (lists : List WaitList) (t : Pcb), lists.foldl (fun s q => s.unlink p q) (t.withOthers x)
          = (lists.foldl (fun s q => s.unlink p q) t).withOthers x := by
        intro lists
        induction lists with
        | nil => intro t; rfl
        | cons q lists ih =>
            intro t
            rw [List.foldl_cons, List.foldl_cons, unlink_withOthers, ih]
      dsimp only
      rw [hfold]
      rfl

theorem removeProcessFromWaitingQueue_withOthers (p : Nat) :
    (s.withOthers x).removeProcessFromWaitingQueue p = (s.removeProcessFromWaitingQueue p).withOthers x := by
  unfold removeProcessFromWaitingQueue
  simp only [List.foldl_cons, List.foldl_nil, leaveQueue_withOthers]

/-! ## Processes -/

theorem createProcess_withOthers (attributes : ProcessAttribute) :
    (s.withOthers x).createProcess attributes = outcomeWith (s.createProcess attributes) x := by
  unfold createProcess
  iterate 10 refine refused_withOthers ?_
  rfl

theorem initializeProcessCoreAffinity_withOthers (processId processorCoreId : Int) :
    (s.withOthers x).initializeProcessCoreAffinity processId processorCoreId
      = outcomeWith (s.initializeProcessCoreAffinity processId processorCoreId) x := by
  unfold initializeProcessCoreAffinity
  exact withProcess_withOthers fun node => refused_withOthers (refused_withOthers rfl)

theorem setPriority_withOthers (processId priority : Int) :
    (s.withOthers x).setPriority processId priority = outcomeWith (s.setPriority processId priority) x := by
  have hrest : ∀ (u v : Pcb) (p : Nat) (node : Node), v = u.withOthers x →
      (if (v.proc p).processState = .ready ∨ (v.proc p).processState = .running then
          let pushed := (v.listRemove node).listPushback p
          let s := if (pushed.1.proc p).processState = .running then pushed.1.setCurrent (some pushed.2) else pushed.1
          s.withCurrent fun current => s.yieldToPartition current.data .setPriority
        else v.ret .noError)
      = outcomeWith (if (u.proc p).processState = .ready ∨ (u.proc p).processState = .running then
          let pushed := (u.listRemove node).listPushback p
          let s := if (pushed.1.proc p).processState = .running then pushed.1.setCurrent (some pushed.2) else pushed.1
          s.withCurrent fun current => s.yieldToPartition current.data .setPriority
        else u.ret .noError) x := by
    rintro u v p node rfl
    refine ite_withOthers ?_ rfl
    dsimp only
    by_cases hrunning : (((u.listRemove node).listPushback p).1.proc p).processState = .running
    · rw [if_pos hrunning]
      exact (congrArg (fun t : Pcb => t.withCurrent fun current => t.yieldToPartition current.data .setPriority)
        (if_pos hrunning)).trans (withCurrent_withOthers rfl fun _ => rfl)
    · rw [if_neg hrunning]
      exact (congrArg (fun t : Pcb => t.withCurrent fun current => t.yieldToPartition current.data .setPriority)
        (if_neg hrunning)).trans (withCurrent_withOthers rfl fun _ => rfl)
  unfold setPriority
  refine withProcess_withOthers fun node => refused_withOthers (refused_withOthers ?_)
  dsimp only
  rw [show (s.withOthers x).proc = s.proc from rfl]
  by_cases howns : (s.proc node.data).ownedMutexId ≠ noMutexOwned
  · rw [if_pos howns, if_pos howns, show (s.withOthers x).findMutexById (s.proc node.data).ownedMutexId
      = s.findMutexById (s.proc node.data).ownedMutexId from rfl]
    cases s.findMutexById (s.proc node.data).ownedMutexId with
    | none => rfl
    | some index => exact hrest _ _ node.data node rfl
  · rw [if_neg howns, if_neg howns]
    exact hrest _ _ node.data node rfl

theorem suspendSelf_withOthers (timeOut : Int) :
    (s.withOthers x).suspendSelf timeOut = outcomeWith (s.suspendSelf timeOut) x := by
  unfold suspendSelf
  refine withCurrent_withOthers rfl fun node => ?_
  iterate 4 refine refused_withOthers ?_
  rfl

theorem suspend_withOthers (processId : Int) :
    (s.withOthers x).suspend processId = outcomeWith (s.suspend processId) x := by
  unfold suspend
  refine withCurrent_withOthers rfl fun current => withProcess_withOthers fun node => ?_
  iterate 5 refine refused_withOthers ?_
  rfl

theorem resume_withOthers (processId : Int) :
    (s.withOthers x).resume processId = outcomeWith (s.resume processId) x := by
  unfold resume
  refine withCurrent_withOthers rfl fun current => withProcess_withOthers fun node => ?_
  iterate 4 refine refused_withOthers ?_
  dsimp only
  rw [show (s.withOthers x).proc = s.proc from rfl]
  split
  · exact ite_withOthers rfl rfl
  · exact ite_withOthers rfl rfl

theorem stop_withOthers (processId : Int) : (s.withOthers x).stop processId = outcomeWith (s.stop processId) x := by
  unfold stop
  refine withCurrent_withOthers rfl fun current => withProcess_withOthers fun node => ?_
  refine refused_withOthers (refused_withOthers ?_)
  dsimp only
  rw [show (s.withOthers x).proc = s.proc from rfl]
  split
  · rw [removeProcessFromWaitingQueue_withOthers]
    rfl
  · rfl

theorem start_withOthers (processId : Int) : (s.withOthers x).start processId = outcomeWith (s.start processId) x := by
  unfold start
  refine withProcess_withOthers fun node => refused_withOthers (refused_withOthers ?_)
  refine ite_withOthers rfl (ite_withOthers ?_ rfl)
  exact withCurrent_withOthers rfl fun _ => rfl

theorem delayedStart_withOthers (processId delayTime : Int) :
    (s.withOthers x).delayedStart processId delayTime = outcomeWith (s.delayedStart processId delayTime) x := by
  unfold delayedStart
  refine withProcess_withOthers fun node => ?_
  iterate 5 refine refused_withOthers ?_
  refine ite_withOthers rfl (ite_withOthers ?_ rfl)
  exact withCurrent_withOthers rfl fun _ => rfl

theorem timedWait_withOthers (delayTime : Int) :
    (s.withOthers x).timedWait delayTime = outcomeWith (s.timedWait delayTime) x := by
  unfold timedWait
  refine withCurrent_withOthers rfl fun node => ?_
  iterate 3 refine refused_withOthers ?_
  exact ite_withOthers rfl rfl

theorem periodicWait_withOthers : (s.withOthers x).periodicWait = outcomeWith s.periodicWait x := by
  unfold periodicWait
  refine withCurrent_withOthers rfl fun node => ?_
  iterate 3 refine refused_withOthers ?_
  rfl

theorem replenish_withOthers (budgetTime : Int) :
    (s.withOthers x).replenish budgetTime = outcomeWith (s.replenish budgetTime) x := by
  unfold replenish
  refine withCurrent_withOthers rfl fun node => ?_
  iterate 3 refine refused_withOthers ?_
  rfl

/-! ## Blackboards, buffers, semaphores and events -/

theorem createBlackboard_withOthers (name : Name) (maxMessageSize : Int) :
    (s.withOthers x).createBlackboard name maxMessageSize
      = outcomeWith (s.createBlackboard name maxMessageSize) x := by
  unfold createBlackboard
  iterate 4 refine refused_withOthers ?_
  rfl

theorem displayBlackboard_withOthers (blackboardId : Int) (messageAddr : Area) (length : Int) :
    (s.withOthers x).displayBlackboard blackboardId messageAddr length
      = outcomeWith (s.displayBlackboard blackboardId messageAddr length) x := by
  unfold displayBlackboard
  rw [show (s.withOthers x).findBlackboardById blackboardId = s.findBlackboardById blackboardId from rfl]
  cases s.findBlackboardById blackboardId with
  | none => rfl
  | some index =>
      have hwakes : ∀ u v : Pcb, v = u.withOthers x →
          (if decide (0 < s.waitingCount (.blackboard, index)) = true then
            (v.wakeAll (.blackboard index)).withCurrent fun node =>
              (v.wakeAll (.blackboard index)).yieldToPartition node.data .displayBlackboard
          else (v.wakeAll (.blackboard index)).ret .noError)
          = outcomeWith (if decide (0 < s.waitingCount (.blackboard, index)) = true then
            (u.wakeAll (.blackboard index)).withCurrent fun node =>
              (u.wakeAll (.blackboard index)).yieldToPartition node.data .displayBlackboard
          else (u.wakeAll (.blackboard index)).ret .noError) x := by
        intro u v hv
        rw [wakeAll_withOthers hv]
        exact ite_withOthers (withCurrent_withOthers rfl fun _ => rfl) rfl
      exact refused_withOthers (refused_withOthers (hwakes _ _ rfl))

theorem readBlackboard_withOthers (blackboardId timeOut : Int) :
    (s.withOthers x).readBlackboard blackboardId timeOut = outcomeWith (s.readBlackboard blackboardId timeOut) x := by
  unfold readBlackboard
  rw [show (s.withOthers x).findBlackboardById blackboardId = s.findBlackboardById blackboardId from rfl]
  cases s.findBlackboardById blackboardId with
  | none => rfl
  | some index =>
      refine refused_withOthers (withCurrent_withOthers rfl fun node => ?_)
      exact ite_withOthers rfl (refused_withOthers (refused_withOthers (ite_withOthers rfl rfl)))

theorem clearBlackboard_withOthers (blackboardId : Int) :
    (s.withOthers x).clearBlackboard blackboardId = outcomeWith (s.clearBlackboard blackboardId) x := by
  unfold clearBlackboard
  rw [show (s.withOthers x).findBlackboardById blackboardId = s.findBlackboardById blackboardId from rfl]
  cases s.findBlackboardById blackboardId with
  | none => rfl
  | some index => rfl

theorem createBuffer_withOthers (name : Name) (maxMessageSize maxNbMessage queuingDiscipline : Int) :
    (s.withOthers x).createBuffer name maxMessageSize maxNbMessage queuingDiscipline
      = outcomeWith (s.createBuffer name maxMessageSize maxNbMessage queuingDiscipline) x := by
  unfold createBuffer
  iterate 4 refine refused_withOthers ?_
  cases QueuingDiscipline.ofInt? queuingDiscipline with
  | none => rfl
  | some discipline => exact refused_withOthers rfl

theorem sendBuffer_withOthers (bufferId : Int) (messageAddr : Area) (length timeOut : Int) :
    (s.withOthers x).sendBuffer bufferId messageAddr length timeOut
      = outcomeWith (s.sendBuffer bufferId messageAddr length timeOut) x := by
  unfold sendBuffer
  rw [show (s.withOthers x).findBufferById bufferId = s.findBufferById bufferId from rfl]
  cases s.findBufferById bufferId with
  | none => rfl
  | some index =>
      iterate 3 refine refused_withOthers ?_
      refine withCurrent_withOthers rfl fun node => ite_withOthers ?_ (refused_withOthers (refused_withOthers ?_))
      · dsimp only
        rw [wakeFirst_withOthers]
        cases s.wakeFirst (.bufferReaders index) true with
        | none => rfl
        | some w => rfl
      · exact ite_withOthers rfl rfl

theorem receiveBuffer_withOthers (bufferId timeOut : Int) (messageAddr : Area) :
    (s.withOthers x).receiveBuffer bufferId timeOut messageAddr
      = outcomeWith (s.receiveBuffer bufferId timeOut messageAddr) x := by
  unfold receiveBuffer
  rw [show (s.withOthers x).findBufferById bufferId = s.findBufferById bufferId from rfl]
  cases s.findBufferById bufferId with
  | none => rfl
  | some index =>
      refine refused_withOthers (withCurrent_withOthers rfl fun node => ?_)
      refine ite_withOthers ?_ (refused_withOthers (refused_withOthers ?_))
      · dsimp only
        rw [show (s.withOthers x).takeMessage index node.data = (s.takeMessage index node.data).withOthers x from rfl,
          wakeFirst_withOthers]
        cases (s.takeMessage index node.data).wakeFirst (.bufferWriters index) true with
        | none => rfl
        | some w => rfl
      · exact ite_withOthers rfl rfl

theorem createSemaphore_withOthers (name : Name) (currentValue maximumValue queuingDiscipline : Int) :
    (s.withOthers x).createSemaphore name currentValue maximumValue queuingDiscipline
      = outcomeWith (s.createSemaphore name currentValue maximumValue queuingDiscipline) x := by
  unfold createSemaphore
  iterate 5 refine refused_withOthers ?_
  cases QueuingDiscipline.ofInt? queuingDiscipline with
  | none => rfl
  | some discipline => exact refused_withOthers rfl

theorem waitSemaphore_withOthers (semaphoreId timeOut : Int) :
    (s.withOthers x).waitSemaphore semaphoreId timeOut = outcomeWith (s.waitSemaphore semaphoreId timeOut) x := by
  unfold waitSemaphore
  rw [show (s.withOthers x).findSemaphoreById semaphoreId = s.findSemaphoreById semaphoreId from rfl]
  cases s.findSemaphoreById semaphoreId with
  | none => rfl
  | some index =>
      refine refused_withOthers (withCurrent_withOthers rfl fun node => ?_)
      exact ite_withOthers rfl (refused_withOthers (refused_withOthers (ite_withOthers rfl rfl)))

theorem signalSemaphore_withOthers (semaphoreId : Int) :
    (s.withOthers x).signalSemaphore semaphoreId = outcomeWith (s.signalSemaphore semaphoreId) x := by
  unfold signalSemaphore
  rw [show (s.withOthers x).findSemaphoreById semaphoreId = s.findSemaphoreById semaphoreId from rfl]
  cases s.findSemaphoreById semaphoreId with
  | none => rfl
  | some index =>
      refine refused_withOthers ?_
      rw [wakeFirst_withOthers]
      cases s.wakeFirst (.semaphore index) true with
      | none => rfl
      | some w => exact withCurrent_withOthers rfl fun _ => rfl

theorem createEvent_withOthers (name : Name) :
    (s.withOthers x).createEvent name = outcomeWith (s.createEvent name) x := by
  unfold createEvent
  iterate 3 refine refused_withOthers ?_
  rfl

theorem setEvent_withOthers (eventId : Int) : (s.withOthers x).setEvent eventId = outcomeWith (s.setEvent eventId) x := by
  unfold setEvent
  rw [show (s.withOthers x).findEventById eventId = s.findEventById eventId from rfl]
  cases s.findEventById eventId with
  | none => rfl
  | some index =>
      have hwakes : ∀ (u v : Pcb) (p : Nat), v = u.withOthers x → (v.wakeAll (.event index)).yieldToPartition p .setEvent
          = outcomeWith ((u.wakeAll (.event index)).yieldToPartition p .setEvent) x := by
        intro u v p hv
        rw [wakeAll_withOthers hv]
        rfl
      exact ite_withOthers rfl (withCurrent_withOthers rfl fun node => hwakes _ _ node.data rfl)

theorem resetEvent_withOthers (eventId : Int) :
    (s.withOthers x).resetEvent eventId = outcomeWith (s.resetEvent eventId) x := by
  unfold resetEvent
  rw [show (s.withOthers x).findEventById eventId = s.findEventById eventId from rfl]
  cases s.findEventById eventId with
  | none => rfl
  | some index => rfl

theorem waitEvent_withOthers (eventId timeOut : Int) :
    (s.withOthers x).waitEvent eventId timeOut = outcomeWith (s.waitEvent eventId timeOut) x := by
  unfold waitEvent
  rw [show (s.withOthers x).findEventById eventId = s.findEventById eventId from rfl]
  cases s.findEventById eventId with
  | none => rfl
  | some index =>
      refine refused_withOthers (withCurrent_withOthers rfl fun node => ?_)
      iterate 3 refine refused_withOthers ?_
      exact ite_withOthers rfl rfl

theorem finishAperiodicWaitEvent_withOthers (p : Nat) :
    (s.withOthers x).finishAperiodicWaitEvent p = outcomeWith (s.finishAperiodicWaitEvent p) x :=
  refused_withOthers rfl

theorem aperiodicWaitEvent_withOthers (eventId : Int) :
    (s.withOthers x).aperiodicWaitEvent eventId = outcomeWith (s.aperiodicWaitEvent eventId) x := by
  unfold aperiodicWaitEvent
  refine withCurrent_withOthers rfl fun node => refused_withOthers ?_
  rw [show (s.withOthers x).findEventById eventId = s.findEventById eventId from rfl]
  cases s.findEventById eventId with
  | none => rfl
  | some index =>
      refine refused_withOthers (refused_withOthers (ite_withOthers ?_ rfl))
      rw [modProc_withOthers]
      exact finishAperiodicWaitEvent_withOthers _

/-! ## Mutexes -/

theorem handMutexOver_withOthers (ht : t = s.withOthers x) (index : Nat) (mutexId : Int) :
    t.handMutexOver index mutexId = (s.handMutexOver index mutexId).map fun u => u.withOthers x := by
  rw [ht]
  unfold handMutexOver
  rw [wakeFirst_withOthers]
  cases s.wakeFirst (.mutex index) true with
  | none => rfl
  | some w =>
      dsimp only [Option.map_some]
      rw [show ((w.2.withOthers x).giveMutex index w.1 mutexId) = (w.2.giveMutex index w.1 mutexId).withOthers x from rfl]
      generalize w.2.giveMutex index w.1 mutexId = u
      rw [show (u.withOthers x).isProcessIdExisted ((u.withOthers x).proc w.1).processId
        = u.isProcessIdExisted (u.proc w.1).processId from rfl]
      cases u.isProcessIdExisted (u.proc w.1).processId with
      | none => rfl
      | some node => rfl

theorem krnlAcquireMutex_withOthers (mutexId timeOut : Int) (k : Bool → Context) :
    (s.withOthers x).krnlAcquireMutex mutexId timeOut k = outcomeWith (s.krnlAcquireMutex mutexId timeOut k) x := by
  unfold krnlAcquireMutex
  rw [show (s.withOthers x).findMutexById mutexId = s.findMutexById mutexId from rfl]
  cases s.findMutexById mutexId with
  | none => rfl
  | some index =>
      refine refused_withOthers (withCurrent_withOthers rfl fun node => ?_)
      iterate 3 refine refused_withOthers ?_
      exact ite_withOthers rfl (ite_withOthers (refused_withOthers rfl) (refused_withOthers (ite_withOthers rfl rfl)))

theorem krnlReleaseMutex_withOthers (mutexId : Int) (k : Context) :
    (s.withOthers x).krnlReleaseMutex mutexId k = outcomeWith (s.krnlReleaseMutex mutexId k) x := by
  unfold krnlReleaseMutex
  rw [show (s.withOthers x).findMutexById mutexId = s.findMutexById mutexId from rfl]
  cases s.findMutexById mutexId with
  | none => rfl
  | some index =>
      refine withCurrent_withOthers rfl fun node => refused_withOthers (ite_withOthers ?_ rfl)
      rw [takeMutexBack_withOthers]
      dsimp only
      rw [setCurrent_withOthers, handMutexOver_withOthers rfl]
      cases ((s.takeMutexBack index node.data node).1.setCurrent
        (some (s.takeMutexBack index node.data node).2)).handMutexOver index mutexId with
      | none => rfl
      | some u => rfl

theorem acquireMutex_withOthers (mutexId timeOut : Int) :
    (s.withOthers x).acquireMutex mutexId timeOut = outcomeWith (s.acquireMutex mutexId timeOut) x :=
  refused_withOthers (krnlAcquireMutex_withOthers _ _ _)

theorem releaseMutex_withOthers (mutexId : Int) :
    (s.withOthers x).releaseMutex mutexId = outcomeWith (s.releaseMutex mutexId) x :=
  refused_withOthers (krnlReleaseMutex_withOthers _ _)

theorem resetOwnedMutex_withOthers (ht : t = s.withOthers x) (index p : Nat) (node : Node) :
    t.resetOwnedMutex index p node = (s.resetOwnedMutex index p node).map fun u => u.withOthers x := by
  rw [ht]
  have hlevel : (s.withOthers x).resetLockLevel index = (s.resetLockLevel index).withOthers x := by
    unfold resetLockLevel
    rw [show (s.withOthers x).res = s.res from rfl]
    split
    · rfl
    · rfl
  unfold resetOwnedMutex
  dsimp only
  rw [hlevel, takeMutexBack_withOthers]
  generalize (s.resetLockLevel index).takeMutexBack index p node = w
  dsimp only
  rw [show (w.1.withOthers x).proc = w.1.proc from rfl]
  split
  · rw [setCurrent_withOthers]
    exact handMutexOver_withOthers rfl _ _
  · exact handMutexOver_withOthers rfl _ _

theorem resetMutex_withOthers (mutexId processId : Int) :
    (s.withOthers x).resetMutex mutexId processId = outcomeWith (s.resetMutex mutexId processId) x := by
  unfold resetMutex
  refine withCurrent_withOthers rfl fun current => refused_withOthers ?_
  rw [show (s.withOthers x).findMutexById mutexId = s.findMutexById mutexId from rfl]
  cases s.findMutexById mutexId with
  | none => rfl
  | some index =>
      refine refused_withOthers ?_
      rw [show (s.withOthers x).isProcessIdExisted processId = s.isProcessIdExisted processId from rfl]
      cases s.isProcessIdExisted processId with
      | none => rfl
      | some node =>
          refine refused_withOthers (refused_withOthers ?_)
          rw [resetOwnedMutex_withOthers rfl]
          cases s.resetOwnedMutex index node.data node with
          | none => rfl
          | some u => rfl

theorem createMutex_withOthers (name : Name) (mutexPriority queuingDiscipline : Int) :
    (s.withOthers x).createMutex name mutexPriority queuingDiscipline
      = outcomeWith (s.createMutex name mutexPriority queuingDiscipline) x := by
  unfold createMutex
  iterate 3 refine refused_withOthers ?_
  cases QueuingDiscipline.ofInt? queuingDiscipline with
  | none => rfl
  | some discipline => exact refused_withOthers rfl

theorem stopSelf_withOthers : (s.withOthers x).stopSelf = outcomeWith s.stopSelf x := by
  unfold stopSelf
  refine withCurrent_withOthers rfl fun node => ?_
  dsimp only
  rw [modProc_withOthers]
  generalize s.modProc node.data (fun y => { y with deadlineTime := infiniteTimeValue }) = u
  rw [show (u.withOthers x).proc = u.proc from rfl]
  by_cases howns : (u.proc node.data).ownedMutexId ≠ noMutexOwned
  · rw [if_pos howns, if_pos howns, show (u.withOthers x).findMutexById (u.proc node.data).ownedMutexId
      = u.findMutexById (u.proc node.data).ownedMutexId from rfl]
    cases u.findMutexById (u.proc node.data).ownedMutexId with
    | none => rfl
    | some index =>
        simp only [Option.bind_some]
        rw [resetOwnedMutex_withOthers rfl]
        cases u.resetOwnedMutex index node.data node with
        | none => rfl
        | some v => rfl
  · rw [if_neg howns, if_neg howns]
    rfl

theorem refreshLockLevel_withOthers (rc : ReturnCode) :
    (s.withOthers x).refreshLockLevel rc = outcomeWith (s.refreshLockLevel rc) x := by
  unfold refreshLockLevel
  rw [show (s.withOthers x).findMutexById preemptionLockMutex = s.findMutexById preemptionLockMutex from rfl]
  cases s.findMutexById preemptionLockMutex with
  | none => rfl
  | some index => rfl

theorem thenRefreshLockLevel_withOthers (o : Outcome) :
    thenRefreshLockLevel (outcomeWith o x) = outcomeWith (thenRefreshLockLevel o) x := by
  obtain ⟨u, r⟩ := o
  cases r with
  | none => rfl
  | some r => exact refreshLockLevel_withOthers _

theorem lockPreemption_withOthers : (s.withOthers x).lockPreemption = outcomeWith s.lockPreemption x := by
  unfold lockPreemption
  refine withCurrent_withOthers rfl fun node => ite_withOthers rfl ?_
  rw [krnlAcquireMutex_withOthers, thenRefreshLockLevel_withOthers]

theorem unlockPreemption_withOthers : (s.withOthers x).unlockPreemption = outcomeWith s.unlockPreemption x := by
  unfold unlockPreemption
  refine withCurrent_withOthers rfl fun node => ite_withOthers rfl (ite_withOthers rfl ?_)
  rw [krnlReleaseMutex_withOthers, thenRefreshLockLevel_withOthers]

/-! ## Errors -/

theorem hmRaisePartitionError_withOthers (ht : t = s.withOthers x) (error : ErrorStatus) :
    t.hmRaisePartitionError error = (s.hmRaisePartitionError error).withOthers x := by
  rw [ht]
  unfold hmRaisePartitionError
  rw [show (s.withOthers x).conf = s.conf from rfl, show (s.withOthers x).status = s.status from rfl,
    show (s.withOthers x).isProcessIdExisted error.failedProcessId = s.isProcessIdExisted error.failedProcessId from rfl]
  split
  · cases s.isProcessIdExisted error.failedProcessId with
    | none => rfl
    | some node => rfl
  · rfl

theorem wakeErrorHandler_withOthers (ht : t = s.withOthers x) (p : Nat) :
    t.wakeErrorHandler p = (s.wakeErrorHandler p).map fun u => u.withOthers x := by
  rw [ht]
  unfold wakeErrorHandler
  rw [show (s.withOthers x).proc = s.proc from rfl]
  split
  · rfl
  · rfl

theorem hmRaiseError_withOthers (errorCode : ErrorCode) (messageAddr : Area) (length : Int) :
    (s.withOthers x).hmRaiseError errorCode messageAddr length
      = outcomeWith (s.hmRaiseError errorCode messageAddr length) x := by
  unfold hmRaiseError
  refine withCurrent_withOthers rfl fun node => ?_
  dsimp only
  rw [modProc_withOthers]
  generalize s.modProc node.data (fun y => { y with processState := .faulted }) = u
  rw [show (u.withOthers x).errorHandlerProcess = u.errorHandlerProcess from rfl,
    show (u.withOthers x).proc = u.proc from rfl]
  cases u.errorHandlerProcess with
  | none =>
      exact congrArg (fun v : Pcb => (v.toPartitionOs, (none : Option Result))) (hmRaisePartitionError_withOthers rfl _)
  | some handler =>
      refine ite_withOthers ?_ ?_
      · exact congrArg (fun v : Pcb => (v.toPartitionOs, (none : Option Result)))
          (hmRaisePartitionError_withOthers rfl _)
      · rw [hmWriteError_withOthers, wakeErrorHandler_withOthers rfl]
        cases (u.hmWriteError _).wakeErrorHandler handler with
        | none => rfl
        | some v => rfl

theorem raiseToErrorHandler_withOthers (p : Nat) (error : ErrorStatus) :
    (s.withOthers x).raiseToErrorHandler p error = outcomeWith (s.raiseToErrorHandler p error) x := by
  unfold raiseToErrorHandler
  dsimp only
  rw [hmWriteError_withOthers]
  generalize s.hmWriteError error = u
  rw [show (u.withOthers x).errorHandlerProcess = u.errorHandlerProcess from rfl]
  cases u.errorHandlerProcess with
  | none => rfl
  | some handler =>
      dsimp only
      rw [wakeErrorHandler_withOthers rfl]
      cases u.wakeErrorHandler handler with
      | none => rfl
      | some v => rfl

theorem raiseApplicationError_withOthers (errorCode : ErrorCode) (messageAddr : Area) (length : Int) :
    (s.withOthers x).raiseApplicationError errorCode messageAddr length
      = outcomeWith (s.raiseApplicationError errorCode messageAddr length) x := by
  unfold raiseApplicationError
  refine withCurrent_withOthers rfl fun node => refused_withOthers (refused_withOthers (ite_withOthers ?_ ?_))
  · exact congrArg (fun v : Pcb => v.ret .noError) (hmRaisePartitionError_withOthers rfl _)
  · exact ite_withOthers rfl (raiseToErrorHandler_withOthers _ _)

theorem getErrorStatus_withOthers : (s.withOthers x).getErrorStatus = outcomeWith s.getErrorStatus x := by
  unfold getErrorStatus
  refine withCurrent_withOthers rfl fun node => refused_withOthers (refused_withOthers ?_)
  dsimp only
  rw [show (s.withOthers x).hmReadError = (s.hmReadError.1.withOthers x, s.hmReadError.2) from rfl]
  generalize s.hmReadError = u
  dsimp only
  rw [wakeFirst_withOthers]
  cases u.1.wakeFirst .errorProcesses false with
  | none => rfl
  | some w => rfl

theorem createErrorHandler_withOthers (stackSize : Nat) :
    (s.withOthers x).createErrorHandler stackSize = outcomeWith (s.createErrorHandler stackSize) x := by
  unfold createErrorHandler
  iterate 4 refine refused_withOthers ?_
  rfl

/-! ## Ports -/

theorem createSamplingPort_withOthers (name : Name) (maxMessageSize portDirection refreshPeriod : Int) :
    (s.withOthers x).createSamplingPort name maxMessageSize portDirection refreshPeriod
      = outcomeWith (s.createSamplingPort name maxMessageSize portDirection refreshPeriod) x := by
  unfold createSamplingPort
  refine refused_withOthers ?_
  rw [show (s.withOthers x).checkPortInConfTable name = s.checkPortInConfTable name from rfl]
  cases s.checkPortInConfTable name with
  | none => rfl
  | some row =>
      refine refused_withOthers (refused_withOthers ?_)
      cases checkPortDirectionInConf row portDirection with
      | none => rfl
      | some direction => exact refused_withOthers (refused_withOthers rfl)

theorem createQueuingPort_withOthers (name : Name)
    (maxMessageSize maxNbMessage portDirection queuingDiscipline : Int) :
    (s.withOthers x).createQueuingPort name maxMessageSize maxNbMessage portDirection queuingDiscipline
      = outcomeWith (s.createQueuingPort name maxMessageSize maxNbMessage portDirection queuingDiscipline) x := by
  unfold createQueuingPort
  refine refused_withOthers ?_
  rw [show (s.withOthers x).checkPortInConfTable name = s.checkPortInConfTable name from rfl]
  cases s.checkPortInConfTable name with
  | none => rfl
  | some row =>
      iterate 3 refine refused_withOthers ?_
      cases checkPortDirectionInConf row portDirection with
      | none => rfl
      | some direction =>
          cases QueuingDiscipline.ofInt? queuingDiscipline with
          | none => rfl
          | some discipline => exact refused_withOthers rfl

/-! ## The services that reach no channel -/

/-- The services that do: those that follow the channel of a port, and `SET_PARTITION_MODE`, which may ask for an
    idle window. -/
def Service.reachesKrnl : Service → Bool
  | .writeSamplingMessage _ _ _ | .readSamplingMessage _ | .sendQueuingMessage _ _ _ _ | .receiveQueuingMessage _ _
  | .clearQueuingPort _ | .setPartitionMode _ => true
  | _ => false

/-- The others are the same whatever the channels hold. -/
theorem exec_withOthers {service : Service} (h : Service.reachesKrnl service = false) :
    (s.withOthers x).exec service = outcomeWith (s.exec service) x := by
  cases service with
  | createProcess attributes => exact createProcess_withOthers _
  | initializeProcessCoreAffinity processId core => exact initializeProcessCoreAffinity_withOthers _ _
  | setPriority processId priority => exact setPriority_withOthers _ _
  | suspendSelf timeOut => exact suspendSelf_withOthers _
  | suspend processId => exact suspend_withOthers _
  | resume processId => exact resume_withOthers _
  | stopSelf => exact stopSelf_withOthers
  | stop processId => exact stop_withOthers _
  | start processId => exact start_withOthers _
  | delayedStart processId delayTime => exact delayedStart_withOthers _ _
  | lockPreemption => exact lockPreemption_withOthers
  | unlockPreemption => exact unlockPreemption_withOthers
  | timedWait delayTime => exact timedWait_withOthers _
  | periodicWait => exact periodicWait_withOthers
  | replenish budgetTime => exact replenish_withOthers _
  | createBlackboard name size => exact createBlackboard_withOthers _ _
  | displayBlackboard blackboardId messageAddr length => exact displayBlackboard_withOthers _ _ _
  | readBlackboard blackboardId timeOut => exact readBlackboard_withOthers _ _
  | clearBlackboard blackboardId => exact clearBlackboard_withOthers _
  | createBuffer name size number discipline => exact createBuffer_withOthers _ _ _ _
  | sendBuffer bufferId messageAddr length timeOut => exact sendBuffer_withOthers _ _ _ _
  | receiveBuffer bufferId timeOut messageAddr => exact receiveBuffer_withOthers _ _ _
  | createSemaphore name value maximum discipline => exact createSemaphore_withOthers _ _ _ _
  | waitSemaphore semaphoreId timeOut => exact waitSemaphore_withOthers _ _
  | signalSemaphore semaphoreId => exact signalSemaphore_withOthers _
  | createEvent name => exact createEvent_withOthers _
  | setEvent eventId => exact setEvent_withOthers _
  | resetEvent eventId => exact resetEvent_withOthers _
  | waitEvent eventId timeOut => exact waitEvent_withOthers _ _
  | aperiodicWaitEvent eventId => exact aperiodicWaitEvent_withOthers _
  | createMutex name priority discipline => exact createMutex_withOthers _ _ _
  | acquireMutex mutexId timeOut => exact acquireMutex_withOthers _ _
  | releaseMutex mutexId => exact releaseMutex_withOthers _
  | resetMutex mutexId processId => exact resetMutex_withOthers _ _
  | createSamplingPort name size direction refreshPeriod => exact createSamplingPort_withOthers _ _ _ _
  | createQueuingPort name size number direction discipline => exact createQueuingPort_withOthers _ _ _ _ _
  | createErrorHandler stackSize => exact createErrorHandler_withOthers _
  | raiseApplicationError errorCode messageAddr length => exact raiseApplicationError_withOthers _ _ _
  | getErrorStatus => exact getErrorStatus_withOthers
  | _ => cases h

end Pcb

end UcxArinc
