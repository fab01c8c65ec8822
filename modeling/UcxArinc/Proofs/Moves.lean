import UcxArinc.Implementation.System

set_option autoImplicit false

/-! # What a partition can do

Every service and every turn of the loop of `partition_OS` is a sequence of a few elementary moves:
a process blocks in a list, is taken out of one, gives a mutex back, is stopped, and so on. `Move`
lists them, each with what the code has checked before it, so that an invariant of the partition is
proved once for each move and not for each service. What a run is not allowed to do (block, start,
stop, raise errors) is said by a `Permit`, which the moves concerned carry. -/

namespace UcxArinc

namespace Pcb

/-! ## What most of the code leaves alone -/

/-- The fields of a process record that only the moves below change. -/
structure Touched (x y : Process) : Prop where
  context : y.context = x.context
  processState : y.processState = x.processState
  attributes : y.attributes = x.attributes
  processId : y.processId = x.processId
  rtPrio : y.rtPrio = x.rtPrio
  currentPriority : y.currentPriority = x.currentPriority
  savedInitDelay : y.savedInitDelay = x.savedInitDelay
  timeCounter : y.timeCounter = x.timeCounter
  isSuspended : y.isSuspended = x.isSuspended
  waiting : y.waiting = x.waiting
  ownedMutexId : y.ownedMutexId = x.ownedMutexId
  stack : y.stack = x.stack
  stackSz : y.stackSz = x.stackSz
  releasePointTime : y.releasePointTime = x.releasePointTime

/-- The fields of a mutex record that only the mutex moves change. -/
structure SameMutex (x y : Mutex) : Prop where
  mutexId : y.mutexId = x.mutexId
  mutexState : y.mutexState = x.mutexState
  mutexOwner : y.mutexOwner = x.mutexOwner
  lockCount : y.lockCount = x.lockCount

theorem SameMutex.refl (x : Mutex) : SameMutex x x := ⟨rfl, rfl, rfl, rfl⟩

/-- The configured ports: all of a sampling port but its validity. -/
structure SamePorts (s s' : Pcb) : Prop where
  samplingPortCount : s'.res.samplingPortCount = s.res.samplingPortCount
  queuingPortCount : s'.res.queuingPortCount = s.res.queuingPortCount
  samplingPorts : ∀ i, ∃ v, s'.res.samplingPorts i
    = { s.res.samplingPorts i with lastMsgValidity := v }
  queuingPorts : s'.res.queuingPorts = s.res.queuingPorts

/-- The configuration a partition runs under. -/
structure SameConf (s s' : Pcb) : Prop where
  conf : s'.conf = s.conf
  identifier : s'.status.identifier = s.status.identifier
  systemPortTable : s'.krnl.systemPortTable = s.krnl.systemPortTable
  samplingSize : ∀ c, (s'.krnl.samplingChannels c).maxMessageSize
    = (s.krnl.samplingChannels c).maxMessageSize
  queuingSize : ∀ c, (s'.krnl.queuingChannels c).maxMessageSize
    = (s.krnl.queuingChannels c).maxMessageSize

/-- Nothing that decides which process runs, waits or owns has changed: only the contents of
    resources, channels, clocks and logs. -/
structure Frame (s s' : Pcb) : Prop where
  proc : s'.proc = s.proc
  nextProc : s'.nextProc = s.nextProc
  processes : s'.processes = s.processes
  processCurrent : s'.processCurrent = s.processCurrent
  errorHandlerProcess : s'.errorHandlerProcess = s.errorHandlerProcess
  waitingProcesses : s'.waitingProcesses = s.waitingProcesses
  waitingCount : s'.waitingCount = s.waitingCount
  ctl : s'.ctl = s.ctl
  operatingMode : s'.status.operatingMode = s.status.operatingMode
  mutexCount : s'.res.mutexCount = s.res.mutexCount
  mutexes : s'.res.mutexes = s.res.mutexes
  conf : SameConf s s'
  ports : SamePorts s s'

theorem SamePorts.refl (s : Pcb) : SamePorts s s :=
  ⟨rfl, rfl, fun i => ⟨(s.res.samplingPorts i).lastMsgValidity, rfl⟩, rfl⟩

theorem SameConf.refl (s : Pcb) : SameConf s s := ⟨rfl, rfl, rfl, fun _ => rfl, fun _ => rfl⟩

theorem Frame.refl (s : Pcb) : Frame s s :=
  ⟨rfl, rfl, rfl, rfl, rfl, rfl, rfl, rfl, rfl, rfl, rfl, .refl s, .refl s⟩

/-! ## Permissions -/

/-- What the actions of a run may do. `giveBack` is asked a process that gives its mutex back; `block` and
    `sleep` the state, the process, and the list or the code it resumes in, with the time-out; `suspend`,
    `resume`, `stop`, `quit`, `expire` and `ignore` the state and the process (`quit` is `STOP_SELF`); `acquire`,
    `wake`, `grant`, `prioritize`, `requeue` and `error` the process that takes a free mutex, is woken, is handed
    a mutex over, gets another priority, is put at the end of the process list, or fails; `start` the
    process and whether it starts delayed; `create` the period of a new process; `dispatch` is whether the
    scheduler may run. -/
structure Permit where
  acquire : Nat → Prop
  giveBack : Nat → Prop
  block : Pcb → Nat → WaitList → Option Int → Prop
  sleep : Pcb → Nat → Context → Option Int → Prop
  wake : Nat → Prop
  grant : Nat → Prop
  suspend : Pcb → Nat → Prop
  resume : Pcb → Nat → Prop
  start : Nat → Bool → Prop
  stop : Pcb → Nat → Prop
  quit : Pcb → Nat → Prop
  expire : Pcb → Nat → Prop
  prioritize : Nat → Prop
  requeue : Nat → Prop
  port : PortMapping → Bool → Prop
  create : Int → Prop
  error : Nat → Prop
  ignore : Pcb → Nat → Prop
  dispatch : Prop
  mode : OperatingMode → Prop

/-- Everything is allowed. -/
def Permit.all : Permit where
  acquire _ := True
  giveBack _ := True
  block _ _ _ _ := True
  sleep _ _ _ _ := True
  wake _ := True
  grant _ := True
  suspend _ _ := True
  resume _ _ := True
  start _ _ := True
  stop _ _ := True
  quit _ _ := True
  expire _ _ := True
  prioritize _ := True
  requeue _ := True
  port _ _ := True
  create _ := True
  error _ := True
  ignore _ _ := True
  dispatch := True
  mode _ := True

/-- The release point of a waiting process has come. -/
def ReleaseDue (uptime : Nat) (x : Process) : Prop :=
  x.processState = .waiting ∧
    (x.attributes.period ≠ infiniteTimeValue ∨
      (x.savedInitDelay ≠ 0 ∧ x.attributes.period = infiniteTimeValue)) ∧
    u64 x.releasePointTime ≤ uptime

/-- Every process the clock releases may be woken. -/
def MayRelease (A : Permit) (s : Pcb) : Prop :=
  ∀ p, (∃ n ∈ s.processes, n.data = p) → ReleaseDue s.krnl.uptime (s.proc p) → A.wake p

/-- Process `p` is the first of list `q`. -/
def FirstIn (s : Pcb) (q : WaitList) (p : Nat) : Prop := ∃ rest, s.waitingProcesses q = p :: rest

/-- The time-out of a process has expired. -/
def Due (uptime : Nat) (x : Process) : Prop :=
  x.timeCounter ≠ 0 ∧ x.timeCounter ≤ uptime ∧ x.timeCounter ≠ infiniteTimeValue

/-- Every process whose time-out the clock finds expired may expire. -/
def MayExpire (A : Permit) (s : Pcb) : Prop :=
  ∀ p, (∃ n ∈ s.processes, n.data = p) → Due s.krnl.uptime (s.proc p) → A.expire s p

/-! ## The moves -/

/-- The port a process resumes on. -/
def portOf : Context → Option Nat
  | .sendQueuingMessage port _ _ _ => some port
  | .receiveQueuingMessage port _ => some port
  | _ => none

/-- The code a process resumes in that waits in a list. -/
inductive ResumesFrom : WaitList → Context → Prop
  | sendQueuingMessage (i : Nat) (messageAddr : Area) (length timeOut : Int) :
      ResumesFrom (.queuingPort i) (.sendQueuingMessage i messageAddr length timeOut)
  | receiveQueuingMessage (i : Nat) (timeOut : Int) :
      ResumesFrom (.queuingPort i) (.receiveQueuingMessage i timeOut)
  | readBlackboard (i : Nat) (timed : Bool) : ResumesFrom (.blackboard i) (.readBlackboard i timed)
  | sendBuffer (i : Nat) (timed : Bool) : ResumesFrom (.bufferWriters i) (.sendBuffer timed)
  | receiveBuffer (i : Nat) (timed : Bool) : ResumesFrom (.bufferReaders i) (.receiveBuffer i timed)
  | waitSemaphore (i : Nat) (timed : Bool) : ResumesFrom (.semaphore i) (.waitSemaphore timed)
  | waitEvent (i : Nat) (timed : Bool) : ResumesFrom (.event i) (.waitEvent timed)
  | aperiodicWaitEvent (i : Nat) : ResumesFrom (.event i) .aperiodicWaitEvent
  | acquireMutex (i : Nat) (timed : Bool) : ResumesFrom (.mutex i) (.acquireMutex timed)
  | lockPreemption (i : Nat) : ResumesFrom (.mutex i) .lockPreemption
  | raiseApplicationError (error : ErrorStatus) :
      ResumesFrom .errorProcesses (.raiseApplicationErrorFull error)

theorem ResumesFrom.portOf {q : WaitList} {k : Context} (h : ResumesFrom q k) {i : Nat}
    (hi : portOf k = some i) : q = .queuingPort i := by
  cases h <;> cases hi <;> rfl

theorem ResumesFrom.ne_suspendSelf {q : WaitList} {k : Context} (h : ResumesFrom q k) :
    k ≠ .suspendSelf := by
  rintro rfl
  cases h

/-- The code a process resumes in ends no wait in a list. -/
def resumesPlainly : Context → Bool
  | .sendQueuingMessage _ _ _ _ | .receiveQueuingMessage _ _ | .readBlackboard _ _ | .sendBuffer _
  | .receiveBuffer _ _ | .waitSemaphore _ | .waitEvent _ | .aperiodicWaitEvent | .acquireMutex _
  | .lockPreemption | .raiseApplicationErrorFull _ | .suspendSelf => false
  | _ => true

theorem portOf_of_plain {k : Context} (h : resumesPlainly k = true) : portOf k = none := by
  cases k
  case sendQueuingMessage | receiveQueuingMessage => cases h
  all_goals rfl

theorem ne_suspendSelf_of_plain {k : Context} (h : resumesPlainly k = true) : k ≠ .suspendSelf := by
  rintro rfl
  cases h

/-- Whoever wakes a process of the list cancels its time-out. -/
def cancelsTimer : WaitList → Bool
  | .queuingPort _ | .errorProcesses => false
  | _ => true

/-- `node` is unlinked from the process list and process `p` linked in at its head or its end; the
    current process follows its node when the code says so. -/
def moveNode (s : Pcb) (node : Node) (p : Nat) (front follow : Bool) : Pcb :=
  let (s, newNode) :=
    if front then (s.listRemove node).listPush p else (s.listRemove node).listPushback p
  if follow then s.setCurrent (some newNode) else s

/-- `takeMutexBack`, the current process following its node when the code says so. -/
def takenBack (s : Pcb) (index p : Nat) (node : Node) (follow : Bool) : Pcb :=
  let (s, newNode) := s.takeMutexBack index p node
  if follow then s.setCurrent (some newNode) else s

/-- The record a started process has: a fresh context, `READY` or `WAITING`, and only a delayed start
    touches the times it waits for, and no timer of a periodic process. -/
structure StartedAs (delayed : Bool) (x y : Process) : Prop where
  context : y.context = .entry
  processState : y.processState = .ready ∨ y.processState = .waiting
  attributes : y.attributes = x.attributes
  processId : y.processId = x.processId
  rtPrio : y.rtPrio = x.rtPrio
  currentPriority : y.currentPriority = x.attributes.basePriority
  isSuspended : y.isSuspended = x.isSuspended
  waiting : y.waiting = x.waiting
  ownedMutexId : y.ownedMutexId = x.ownedMutexId
  stack : y.stack = x.stack
  stackSz : y.stackSz = x.stackSz
  times : delayed = false → y.timeCounter = x.timeCounter ∧ y.savedInitDelay = x.savedInitDelay
  timer : x.attributes.period ≠ infiniteTimeValue → y.timeCounter = x.timeCounter

/-- The record of a process put to sleep in no list; only `SUSPEND_SELF` suspends it, and only `PERIODIC_WAIT`
    moves its release point. -/
structure SleepsAs (k : Context) (timer : Option Int) (x y : Process) : Prop where
  context : y.context = k
  processState : y.processState = .waiting
  attributes : y.attributes = x.attributes
  processId : y.processId = x.processId
  rtPrio : y.rtPrio = x.rtPrio
  currentPriority : y.currentPriority = x.currentPriority
  savedInitDelay : y.savedInitDelay = x.savedInitDelay
  timeCounter : y.timeCounter = timer.getD x.timeCounter
  isSuspended : k ≠ .suspendSelf → y.isSuspended = x.isSuspended
  suspends : k = .suspendSelf → y.isSuspended = true
  waiting : y.waiting = x.waiting
  ownedMutexId : y.ownedMutexId = x.ownedMutexId
  stack : y.stack = x.stack
  stackSz : y.stackSz = x.stackSz
  releasePointTime : k ≠ .periodicWait → y.releasePointTime = x.releasePointTime

/-- The record of a new process: `DORMANT`, at its base priority, owning nothing. What the memory
    held stays in the other fields. -/
structure SpawnedAs (x y : Process) : Prop where
  context : y.context = x.context
  waiting : y.waiting = x.waiting
  processState : y.processState = .dormant
  timeCounter : y.timeCounter = 0
  savedInitDelay : y.savedInitDelay = 0
  releasePointTime : y.releasePointTime = 0
  isSuspended : y.isSuspended = false
  ownedMutexId : y.ownedMutexId = noMutexOwned
  currentPriority : y.currentPriority = y.attributes.basePriority
  basePriority : y.attributes.basePriority ≤ maxPriorityValue
  period : infiniteTimeValue ≤ y.attributes.period
  timeCapacity : y.attributes.period ≠ infiniteTimeValue → infiniteTimeValue ≤ y.attributes.timeCapacity

/-- `RESUME` on the record. -/
def resumed (x : Process) : Process :=
  { x with
    isSuspended := false
    timeCounter := if x.isSuspended then 0 else x.timeCounter
    processState := .ready }

/-- `STOP` on the state: out of the waiting queues its back-pointers lead to, and `DORMANT`. -/
def stopped (s : Pcb) (p : Nat) : Pcb :=
  (if isProcessWaitingInWaitingQueue (s.proc p) then s.removeProcessFromWaitingQueue p
    else s).modProc p fun x => { makeDormant x with deadlineTime := infiniteTimeValue }

/-- The sampling port a row of the routing table describes. -/
structure SamplingPortOf (row : PortMapping) (port : SamplingPort) : Prop where
  name : port.samplingPortName = strncpyName row.portName
  maxMessageSize : port.maxMessageSize = row.messageSizeBytes
  portDirection : port.portDirection = row.portDirection
  channel : port.channel = row.samplingChannel

/-- The queuing port a row of the routing table describes. -/
structure QueuingPortOf (row : PortMapping) (port : QueuingPort) : Prop where
  name : port.queuingPortName = strncpyName row.portName
  maxMessageSize : port.maxMessageSize = row.messageSizeBytes
  portDirection : port.portDirection = row.portDirection
  channel : port.channel = row.queuingChannel

/-- A new process in the next cell, at the end of the process list; it may be the error handler. -/
def spawned (s : Pcb) (y : Process) (node : Node) (isErrorHandler : Bool) : Pcb :=
  { s with
    proc := Function.update s.proc s.nextProc y
    nextProc := s.nextProc + 1
    processes := s.processes ++ [node]
    errorHandlerProcess := if isErrorHandler then some s.nextProc else s.errorHandlerProcess }

/-- A process, or the partition's entry point, executes. -/
def Running (s : Pcb) : Prop := s.ctl = .process ∨ s.ctl = .mainProcess

/-- Process `p` executes a service. -/
def Calls (s : Pcb) (p : Nat) : Prop :=
  Running s ∧ ∃ node, s.processCurrent = some node ∧ node.data = p

/-- The node of process `p` the code is about to move: linked, or the current one. The current
    process follows it exactly when the process runs. -/
structure Movable (s : Pcb) (node : Node) (p : Nat) (follow : Bool) : Prop where
  data : node.data = p
  linked : node ∈ s.processes ∨ s.processCurrent = some node
  follows : (s.proc p).processState = .running → follow = true
  followed : follow = true → (s.proc p).processState = .running ∨ s.processCurrent = some node

/-- Mutex `index` exists and has identifier `mutexId`. -/
structure IsMutex (s : Pcb) (index : Nat) (mutexId : Int) : Prop where
  index_lt : index < s.res.mutexCount
  mutexId_eq : (s.res.mutexes index).mutexId = mutexId

/-- The partition initialises. -/
def Starting (s : Pcb) : Prop :=
  s.status.operatingMode = .coldStart ∨ s.status.operatingMode = .warmStart

/-- What `krnl_acquire_mutex` has checked when the caller must wait. -/
structure MustWaitForMutex (s : Pcb) (p index : Nat) : Prop where
  index_lt : index < s.res.mutexCount
  owned : (s.res.mutexes index).mutexState ≠ .available
  other : (s.res.mutexes index).mutexOwner ≠ (s.proc p).processId
  free : (s.proc p).ownedMutexId = noMutexOwned
    ∨ (s.proc p).ownedMutexId = (s.res.mutexes index).mutexId
  notHandler : s.errorHandlerProcess ≠ some p

/-- The elementary moves of a partition, under the permissions `A`. -/
inductive Move (A : Permit) : Pcb → Pcb → Prop
  | frame {s s' : Pcb} (h : Frame s s') : Move A s s'
  | touch (s : Pcb) (p : Nat) (f : Process → Process) (h : ∀ x, Touched x (f x))
      (hdeadline : Calls s p ∨ ∀ x, (f x).deadlineTime = x.deadlineTime) : Move A s (s.modProc p f)
  | moveNode (s : Pcb) (node : Node) (p : Nat) (front follow : Bool)
      (h : Movable s node p follow) (hA : A.requeue p) : Move A s (s.moveNode node p front follow)
  | setPriority (s : Pcb) (p : Nat) (priority : Int) (hfree : (s.proc p).ownedMutexId = noMutexOwned)
      (hmax : priority ≤ maxPriorityValue) (hA : A.prioritize p) :
      Move A s (s.modProc p fun x => { x with currentPriority := priority })
  | savePriority (s : Pcb) (index p : Nat) (priority : Int)
      (hidx : IsMutex s index (s.proc p).ownedMutexId) (hA : A.prioritize p)
      (hlinked : ∃ n ∈ s.processes, n.data = p) :
      Move A s (s.setMutex index { s.res.mutexes index with savedOwnerPriority := priority })
  -- blocking
  | block (s : Pcb) (p : Nat) (q : WaitList) (linked : Bool) (discipline : QueuingDiscipline)
      (timer : Option Int) (k : Context) (hcalls : Calls s p) (hkind : q.kind.isSome)
      (hmutex : ∀ i, q = .mutex i → MustWaitForMutex s p i ∧ linked = true)
      (hk : ∀ i, portOf k = some i → i < s.res.queuingPortCount) (hown : k ≠ .suspendSelf)
      (hA : A.block s p q timer) (hfrom : ResumesFrom q k) :
      Move A s ((s.waitOn p q linked discipline timer).yieldToPartition p k).1
  | blockOnErrors (s : Pcb) (p : Nat) (error : ErrorStatus) (k : Context) (hcalls : Calls s p)
      (hk : k = .raiseApplicationErrorFull error)
      (hA : A.block s p .errorProcesses none) :
      Move A s (({ s.modProc p fun x => { x with
          processState := .waiting
          pendingError := error } with
        waitingProcesses := Function.update s.waitingProcesses .errorProcesses
          (p :: s.waitingProcesses .errorProcesses) }).yieldToPartition p k).1
  | sleep (s : Pcb) (p : Nat) (f : Process → Process) (k : Context) (timer : Option Int)
      (hcalls : Calls s p) (hk : portOf k = none) (hf : ∀ x, SleepsAs k timer x (f x))
      (hA : A.sleep s p k timer) (hsleeps : k = .suspendSelf ∨ k = .timedWait ∨ k = .periodicWait) :
      Move A s (s.modProc p f).toPartitionOs
  | yield (s : Pcb) (p : Nat) (k : Context) (hcalls : Calls s p) (hk : resumesPlainly k = true) :
      Move A s (s.yieldToPartition p k).1
  -- waking
  | wake {s s' : Pcb} (q : WaitList) (cancel : Bool) (p : Nat)
      (h : s.wakeFirst q cancel = some (p, s')) (hq : ∀ i, q ≠ .mutex i) (hA : A.wake p)
      (hcancel : cancel = cancelsTimer q) : Move A s s'
  | handOver {s s' : Pcb} (index : Nat) (mutexId : Int)
      (h : s.handMutexOver index mutexId = some s') (hidx : IsMutex s index mutexId)
      (hstate : (s.res.mutexes index).mutexState = .available)
      (hA : ∀ p, s.FirstIn (.mutex index) p → A.grant p) : Move A s s'
  -- owning
  | acquire (s : Pcb) (index p : Nat) (node : Node) (mutexId : Int) (hcalls : Calls s p)
      (hidx : IsMutex s index mutexId) (hnode : s.processCurrent = some node)
      (hdata : node.data = p) (hstate : (s.res.mutexes index).mutexState = .available)
      (hfree : (s.proc p).ownedMutexId = noMutexOwned ∨ (s.proc p).ownedMutexId = mutexId)
      (hA : A.acquire p) (hnot : s.errorHandlerProcess ≠ some p) :
      Move A s ((s.giveMutex index p mutexId).moveNode node p true true)
  | relock (s : Pcb) (index p : Nat) (mutexId : Int) (hcalls : Calls s p)
      (hidx : IsMutex s index mutexId) (hstate : (s.res.mutexes index).mutexState ≠ .available)
      (hmax : (s.res.mutexes index).lockCount ≠ maxLockLevel) :
      Move A s (s.setMutex index { s.res.mutexes index with
        lockCount := (s.res.mutexes index).lockCount + 1 })
  | unlock (s : Pcb) (index p : Nat) (mutexId : Int) (hcalls : Calls s p)
      (hidx : IsMutex s index mutexId) (hown : (s.proc p).ownedMutexId = mutexId)
      (hlock : (s.res.mutexes index).lockCount - 1 ≠ 0) :
      Move A s (s.setMutex index { s.res.mutexes index with
        lockCount := (s.res.mutexes index).lockCount - 1 })
  | takeBack (s : Pcb) (index p : Nat) (node : Node) (follow : Bool) (mutexId : Int)
      (hrun : Running s) (hidx : IsMutex s index mutexId)
      (hown : (s.proc p).ownedMutexId = mutexId) (h : Movable s node p follow)
      (hA : A.giveBack p) : Move A s (s.takenBack index p node follow)
  -- starting, stopping, suspending
  | suspend (s : Pcb) (node : Node) (hnode : node ∈ s.processes)
      (hother : ∀ c, s.processCurrent = some c →
        (s.proc node.data).processId ≠ (s.proc c.data).processId)
      (hmutex : (s.proc node.data).waiting .mutex = none)
      (howns : (s.proc node.data).ownedMutexId = noMutexOwned)
      (hstate : (s.proc node.data).processState ≠ .dormant)
      (hA : A.suspend s node.data) :
      Move A s (s.modProc node.data fun x => { x with
        isSuspended := true
        processState := .waiting })
  | resume (s : Pcb) (node : Node) (hnode : node ∈ s.processes)
      (hstate : (s.proc node.data).processState ≠ .dormant)
      (hwas : (s.proc node.data).isSuspended = true
        ∨ (s.proc node.data).processState = .faulted) (hA : A.resume s node.data) :
      Move A s (s.modProc node.data resumed)
  | stop (s : Pcb) (node : Node) (hnode : node ∈ s.processes)
      (hother : ∀ c, s.processCurrent = some c →
        (s.proc node.data).processId ≠ (s.proc c.data).processId)
      (hA : A.stop s node.data) : Move A s (s.stopped node.data)
  | stopSelf (s : Pcb) (p : Nat) (hcalls : Calls s p) (hA : A.quit s p) :
      Move A s (s.modProc p makeDormant).toPartitionOs
  | start (s : Pcb) (node : Node) (delayed : Bool) (f : Process → Process)
      (hnode : node ∈ s.processes) (hstate : (s.proc node.data).processState = .dormant)
      (hf : StartedAs delayed (s.proc node.data) (f (s.proc node.data)))
      (hA : A.start node.data delayed) : Move A s (s.modProc node.data f)
  | selfReady (s : Pcb) (p : Nat) (hcalls : Calls s p) (hcan : s.cannotBlock p = false) :
      Move A s (s.modProc p fun x => { x with processState := .ready })
  | timerOff (s : Pcb) (p : Nat) (hcalls : Calls s p) :
      Move A s (s.modProc p fun x => { x with timeCounter := 0 })
  -- errors
  | fault (s : Pcb) (p : Nat) (hcalls : Calls s p) (hA : A.error p) :
      Move A s (s.modProc p fun x => { x with processState := .faulted })
  | ignore (s : Pcb) (node c : Node) (hnode : node ∈ s.processes)
      (hc : s.processCurrent = some c)
      (hid : (s.proc node.data).processId = (s.proc c.data).processId)
      (hA : A.ignore s node.data) :
      Move A s (s.modProc node.data fun x => { x with processState := .ready })
  | readyHandler (s : Pcb) (p : Nat) (hp : s.errorHandlerProcess = some p) :
      Move A s (s.modProc p fun x => { x with processState := .ready, context := .entry })
  | initHandler (s : Pcb) (p : Nat) (hp : s.errorHandlerProcess = some p) :
      Move A s (s.modProc p fun x => { x with context := .entry })
  -- the loop of the partition operating system
  | schedule (s : Pcb) (hctl : s.ctl = .partitionOs) (hmode : ¬ Starting s) (hA : A.dispatch) :
      Move A s s.processSchedule
  | release (s : Pcb) (hctl : s.ctl = .partitionOs) (hA : MayRelease A s) :
      Move A s (s.forEachProcess (checkAndReleasePeriodicWaitingProcesses s.krnl.uptime))
  | timeOuts (s : Pcb) (hctl : s.ctl = .partitionOs) (hA : MayExpire A s) :
      Move A s (s.forEachProcess (checkTimeouts s.krnl.uptime))
  | run (s : Pcb) (node : Node) (hnode : s.processCurrent = some node)
      (hlinked : node ∈ s.processes) (hstate : (s.proc node.data).processState = .running)
      (hmode : s.status.operatingMode = .normal) : Move A s { s with ctl := .process }
  | main (s : Pcb) (hmode : Starting s) : Move A s { s with ctl := .mainProcess }
  | toOs (s : Pcb) : Move A s s.toPartitionOs
  | crash (s : Pcb) : Move A s s.crash.1
  -- initialisation and mode changes
  | spawn (s : Pcb) (y : Process) (node : Node) (isErrorHandler : Bool) (hrun : Running s)
      (hmode : s.status.operatingMode ≠ .normal) (hnode : node.data = s.nextProc)
      (hfirst : isErrorHandler = true → s.errorHandlerProcess = none)
      (hy : SpawnedAs (s.proc s.nextProc) y) (hA : A.create y.attributes.period)
      (hhandler : isErrorHandler = true → y.attributes.period = infiniteTimeValue) :
      Move A s (s.spawned y node isErrorHandler)
  | freshLists (s : Pcb) (k : WaitKind) (i : Nat) (hmode : s.status.operatingMode ≠ .normal) :
      Move A s ((listsOf k i).foldl freshWaitList s)
  | newMutex (s : Pcb) (x : Mutex) (hmode : s.status.operatingMode ≠ .normal)
      (hid : x.mutexId = s.res.mutexCount + 1) (hstate : x.mutexState = .available)
      (hlock : x.lockCount = 0) :
      Move A s { s.setMutex s.res.mutexCount x with
        res := { (s.setMutex s.res.mutexCount x).res with mutexCount := s.res.mutexCount + 1 } }
  | newSamplingPort (s : Pcb) (row : PortMapping) (port : SamplingPort)
      (hmode : s.status.operatingMode ≠ .normal) (hrow : row ∈ s.krnl.systemPortTable)
      (hport : SamplingPortOf row port) (hA : A.port row true) :
      Move A s { s with res := { s.res with
        samplingPorts := Function.update s.res.samplingPorts s.res.samplingPortCount port
        samplingPortCount := s.res.samplingPortCount + 1 } }
  | newQueuingPort (s : Pcb) (row : PortMapping) (port : QueuingPort)
      (hmode : s.status.operatingMode ≠ .normal) (hrow : row ∈ s.krnl.systemPortTable)
      (hport : QueuingPortOf row port) (hA : A.port row false) :
      Move A s { s with res := { s.res with
        queuingPorts := Function.update s.res.queuingPorts s.res.queuingPortCount port
        queuingPortCount := s.res.queuingPortCount + 1 } }
  | toIdle (s : Pcb) (hA : A.mode .idle) :
      Move A s { s.setCurrent none with
        status := { s.status with operatingMode := .idle }, ctl := .partitionOs }
  | toStart (s : Pcb) (mode : OperatingMode) (hmode : mode = .coldStart ∨ mode = .warmStart)
      (hA : A.mode mode) :
      Move A s { s.restart with
        status := { s.status with operatingMode := mode }, ctl := .partitionOs }
  | toNormal (s : Pcb) (firstReleasePoint : Int) (hrun : Running s)
      (hmode : s.status.operatingMode ≠ .normal) (hA : A.mode .normal) :
      Move A s { s.forEachProcess (startProcess s.krnl.uptime firstReleasePoint) with
        status := { s.status with operatingMode := .normal, lockLevel := 0 }, ctl := .partitionOs }

/-- Several moves in a row. -/
abbrev Moves (A : Permit) : Pcb → Pcb → Prop := Relation.ReflTransGen (Move A)

/-! ## Comparing permissions -/

/-- `B` allows what `A` allows. -/
structure Permit.le (A B : Permit) : Prop where
  acquire : ∀ p, A.acquire p → B.acquire p
  giveBack : ∀ p, A.giveBack p → B.giveBack p
  block : ∀ s p q timer, A.block s p q timer → B.block s p q timer
  sleep : ∀ s p k timer, A.sleep s p k timer → B.sleep s p k timer
  wake : ∀ p, A.wake p → B.wake p
  grant : ∀ p, A.grant p → B.grant p
  suspend : ∀ s p, A.suspend s p → B.suspend s p
  resume : ∀ s p, A.resume s p → B.resume s p
  start : ∀ p delayed, A.start p delayed → B.start p delayed
  stop : ∀ s p, A.stop s p → B.stop s p
  quit : ∀ s p, A.quit s p → B.quit s p
  expire : ∀ s p, A.expire s p → B.expire s p
  prioritize : ∀ p, A.prioritize p → B.prioritize p
  requeue : ∀ p, A.requeue p → B.requeue p
  port : ∀ row sampling, A.port row sampling → B.port row sampling
  create : ∀ period, A.create period → B.create period
  error : ∀ p, A.error p → B.error p
  ignore : ∀ s p, A.ignore s p → B.ignore s p
  dispatch : A.dispatch → B.dispatch
  mode : ∀ mode, A.mode mode → B.mode mode

/-- What both allow. -/
def Permit.inf (A B : Permit) : Permit where
  acquire p := A.acquire p ∧ B.acquire p
  giveBack p := A.giveBack p ∧ B.giveBack p
  block s p q timer := A.block s p q timer ∧ B.block s p q timer
  sleep s p k timer := A.sleep s p k timer ∧ B.sleep s p k timer
  wake p := A.wake p ∧ B.wake p
  grant p := A.grant p ∧ B.grant p
  suspend s p := A.suspend s p ∧ B.suspend s p
  resume s p := A.resume s p ∧ B.resume s p
  start p delayed := A.start p delayed ∧ B.start p delayed
  stop s p := A.stop s p ∧ B.stop s p
  quit s p := A.quit s p ∧ B.quit s p
  expire s p := A.expire s p ∧ B.expire s p
  prioritize p := A.prioritize p ∧ B.prioritize p
  requeue p := A.requeue p ∧ B.requeue p
  port row sampling := A.port row sampling ∧ B.port row sampling
  create period := A.create period ∧ B.create period
  error p := A.error p ∧ B.error p
  ignore s p := A.ignore s p ∧ B.ignore s p
  dispatch := A.dispatch ∧ B.dispatch
  mode m := A.mode m ∧ B.mode m

theorem Permit.inf_le_left (A B : Permit) : (A.inf B).le A := by
  constructor <;> intros <;> exact And.left ‹_›

/-- A move that is allowed stays so when more is allowed. -/
theorem Move.mono {A B : Permit} (hle : A.le B) {s s' : Pcb} (hm : Move A s s') : Move B s s' := by
  cases hm with
  | frame h => exact .frame h
  | touch p f h hdeadline => exact .touch s p f h hdeadline
  | moveNode node p front follow h hA => exact .moveNode s node p front follow h (hle.requeue p hA)
  | setPriority p priority hfree hmax hA =>
      exact .setPriority s p priority hfree hmax (hle.prioritize p hA)
  | savePriority index p priority hidx hA hlinked =>
      exact .savePriority s index p priority hidx (hle.prioritize p hA) hlinked
  | block p q linked discipline timer k hcalls hkind hmutex hk hown hA hfrom =>
      exact .block s p q linked discipline timer k hcalls hkind hmutex hk hown (hle.block _ _ _ _ hA) hfrom
  | blockOnErrors p error k hcalls hk hA =>
      exact .blockOnErrors s p error k hcalls hk (hle.block _ _ _ _ hA)
  | sleep p f k timer hcalls hk hf hA hsleeps =>
      exact .sleep s p f k timer hcalls hk hf (hle.sleep _ _ _ _ hA) hsleeps
  | yield p k hcalls hk => exact .yield s p k hcalls hk
  | wake q cancel p h hq hA hcancel => exact .wake q cancel p h hq (hle.wake p hA) hcancel
  | handOver index mutexId h hidx hstate hA =>
      exact .handOver index mutexId h hidx hstate fun p hp => hle.grant p (hA p hp)
  | acquire index p node mutexId hcalls hidx hnode hdata hstate hfree hA hnot =>
      exact .acquire s index p node mutexId hcalls hidx hnode hdata hstate hfree (hle.acquire p hA) hnot
  | relock index p mutexId hcalls hidx hstate hmax => exact .relock s index p mutexId hcalls hidx hstate hmax
  | unlock index p mutexId hcalls hidx hown hlock => exact .unlock s index p mutexId hcalls hidx hown hlock
  | takeBack index p node follow mutexId hrun hidx hown h hA =>
      exact .takeBack s index p node follow mutexId hrun hidx hown h (hle.giveBack p hA)
  | suspend node hnode hother hmutex howns hstate hA =>
      exact .suspend s node hnode hother hmutex howns hstate (hle.suspend _ _ hA)
  | resume node hnode hstate hwas hA => exact .resume s node hnode hstate hwas (hle.resume _ _ hA)
  | stop node hnode hother hA => exact .stop s node hnode hother (hle.stop _ _ hA)
  | stopSelf p hcalls hA => exact .stopSelf s p hcalls (hle.quit _ _ hA)
  | start node delayed f hnode hstate hf hA =>
      exact .start s node delayed f hnode hstate hf (hle.start _ _ hA)
  | selfReady p hcalls hcan => exact .selfReady s p hcalls hcan
  | timerOff p hcalls => exact .timerOff s p hcalls
  | fault p hcalls hA => exact .fault s p hcalls (hle.error p hA)
  | ignore node c hnode hc hid hA => exact .ignore s node c hnode hc hid (hle.ignore _ _ hA)
  | readyHandler p hp => exact .readyHandler s p hp
  | initHandler p hp => exact .initHandler s p hp
  | schedule hctl hmode hA => exact .schedule s hctl hmode (hle.dispatch hA)
  | release hctl hA => exact .release s hctl fun p hp hdue => hle.wake p (hA p hp hdue)
  | timeOuts hctl hA => exact .timeOuts s hctl fun p hp hdue => hle.expire s p (hA p hp hdue)
  | run node hnode hlinked hstate hmode => exact .run s node hnode hlinked hstate hmode
  | main hmode => exact .main s hmode
  | toOs => exact .toOs s
  | crash => exact .crash s
  | spawn y node isErrorHandler hrun hmode hnode hfirst hy hA hhandler =>
      exact .spawn s y node isErrorHandler hrun hmode hnode hfirst hy (hle.create _ hA) hhandler
  | freshLists k i hmode => exact .freshLists s k i hmode
  | newMutex x hmode hid hstate hlock => exact .newMutex s x hmode hid hstate hlock
  | newSamplingPort row port hmode hrow hport hA =>
      exact .newSamplingPort s row port hmode hrow hport (hle.port _ _ hA)
  | newQueuingPort row port hmode hrow hport hA =>
      exact .newQueuingPort s row port hmode hrow hport (hle.port _ _ hA)
  | toIdle hA => exact .toIdle s (hle.mode _ hA)
  | toStart mode hmode hA => exact .toStart s mode hmode (hle.mode _ hA)
  | toNormal point hrun hmode hA => exact .toNormal s point hrun hmode (hle.mode _ hA)

end Pcb

end UcxArinc
