import UcxArinc.Proofs.Moves
import UcxArinc.Proofs.Primitives

set_option autoImplicit false

/-! # The services as moves

What an action needs a permission for is said by `Permits`; under it every step of a partition is a
sequence of moves (`step_moves`). -/

namespace UcxArinc

namespace Pcb

variable {A : Permit} {s s' : Pcb}

/-! ## Permissions of an action -/

/-- `t` is `s`, where process `p` may have noted something in its record. -/
def Noted (s : Pcb) (p : Nat) (t : Pcb) : Prop :=
  t = s ∨ ∃ f, (∀ x, Touched x (f x)) ∧ t = s.modProc p f

/-- The current process, if it passes the checks of a service called with `timeOut`, may wait in
    list `q`. -/
def MayBlock (A : Permit) (s : Pcb) (q : WaitList) (timeOut : Int) : Prop :=
  timeOut ≠ 0 → s.timeOutInvalid timeOut = false →
    ∀ c, s.processCurrent = some c → s.cannotBlock c.data = false → ∀ t, Noted s c.data t →
      A.block t c.data q (if timeOut = infiniteTimeValue then none else some (s.fromNow timeOut))

/-- The same for a mutex: the process may already own it, but then it does not wait. -/
def MayWaitForMutex (A : Permit) (s : Pcb) (mutexId timeOut : Int) : Prop :=
  timeOut ≠ 0 → ∀ c i, s.processCurrent = some c → s.findMutexById mutexId = some i →
    MustWaitForMutex s c.data i →
      A.block s c.data (.mutex i) (if timeOut = infiniteTimeValue then none else some (s.fromNow timeOut))

/-- The current process may take a free mutex. -/
def MayAcquire (A : Permit) (s : Pcb) : Prop :=
  ∀ c, s.processCurrent = some c → s.errorHandlerProcess ≠ some c.data → A.acquire c.data

/-- The current process may sleep, to resume in `k`. -/
def MaySleep (A : Permit) (s : Pcb) (k : Context) (timer : Option Int) : Prop :=
  ∀ c, s.processCurrent = some c → s.cannotBlock c.data = false →
    (k = .suspendSelf → (s.proc c.data).attributes.period = infiniteTimeValue) →
      A.sleep s c.data k timer

/-- The process an ignored error leads to may be made `READY`. -/
def MayIgnore (A : Permit) (s : Pcb) (processId : Int) : Prop :=
  ∀ node, s.isProcessIdExisted processId = some node → A.ignore s node.data

/-- The clock releases the processes before it looks at their time-outs. -/
def released (s : Pcb) : Pcb :=
  ({ s with lastTick := s.krnl.ticks } : Pcb).forEachProcess
    (checkAndReleasePeriodicWaitingProcesses s.krnl.uptime)

/-- `CREATE_SAMPLING_PORT` accepts its parameters, with `row` the row it has found. -/
structure AcceptsSamplingPort (s : Pcb) (name : Name)
    (maxMessageSize portDirection refreshPeriod : Int) (row : PortMapping) : Prop where
  room : s.res.samplingPortCount + 1 ≤ s.conf.maxSamplingPorts
  size : maxMessageSize ≤ s.conf.maxSamplingPortDataSize
  row_eq : s.checkPortInConfTable name = some row
  fresh : s.findSamplingPortByName name = none
  positive : 0 < maxMessageSize
  size_eq : maxMessageSize = row.messageSizeBytes
  direction : (checkPortDirectionInConf row portDirection).isSome
  refresh : 0 ≤ refreshPeriod ∧ timeOverflow (u64 (s.fromNow refreshPeriod)) = false
  mode : s.status.operatingMode ≠ .normal

/-- `CREATE_QUEUING_PORT` accepts its parameters, with `row` the row it has found. -/
structure AcceptsQueuingPort (s : Pcb) (name : Name)
    (maxMessageSize maxNbMessage portDirection queuingDiscipline : Int) (row : PortMapping) :
    Prop where
  room : s.res.queuingPortCount + 1 ≤ s.conf.maxQueuingPorts
  size : maxMessageSize ≤ s.conf.maxQueuingPortDataSize
  row_eq : s.checkPortInConfTable name = some row
  fresh : s.findQueuingPortByName name = none
  positive : 0 < maxMessageSize
  size_eq : maxMessageSize = row.messageSizeBytes
  number : 0 < maxNbMessage ∧ maxNbMessage ≤ row.maxNbMessage
  direction : (checkPortDirectionInConf row portDirection).isSome
  discipline : (QueuingDiscipline.ofInt? queuingDiscipline).isSome
  mode : s.status.operatingMode ≠ .normal

/-- Process `p` is the first that waits for the mutex the current process gives back. -/
def ReleasesTo (s : Pcb) (mutexId : Int) (p : Nat) : Prop :=
  ∃ c i, s.processCurrent = some c ∧ (s.proc c.data).ownedMutexId = mutexId
    ∧ s.findMutexById mutexId = some i ∧ (s.res.mutexes i).lockCount - 1 = 0
    ∧ s.FirstIn (.mutex i) p

/-- A service call that is not refused wakes process `p`. -/
def Wakes (s : Pcb) : Service → Nat → Prop
  | .displayBlackboard blackboardId _ length, p => ∃ i, s.findBlackboardById blackboardId = some i
      ∧ length ≤ (s.res.blackboards i).maxMessageSize ∧ 0 < length ∧ p ∈ s.waitingProcesses (.blackboard i)
  | .sendBuffer bufferId _ length timeOut, p => ∃ i, s.findBufferById bufferId = some i
      ∧ length < (s.res.buffers i).maxMessageSize ∧ 0 < length ∧ s.timeOutInvalid timeOut = false
      ∧ (s.res.buffers i).nbMessage < (s.res.buffers i).maxNbMessage ∧ s.FirstIn (.bufferReaders i) p
  | .receiveBuffer bufferId timeOut _, p => ∃ i, s.findBufferById bufferId = some i
      ∧ s.timeOutInvalid timeOut = false ∧ 0 < (s.res.buffers i).nbMessage ∧ s.FirstIn (.bufferWriters i) p
  | .signalSemaphore semaphoreId, p => ∃ i, s.findSemaphoreById semaphoreId = some i
      ∧ (s.res.semaphores i).currentValue ≠ (s.res.semaphores i).maximumValue ∧ s.FirstIn (.semaphore i) p
  | .setEvent eventId, p => ∃ i, s.findEventById eventId = some i ∧ p ∈ s.waitingProcesses (.event i)
  | .releaseMutex mutexId, p => s.ReleasesTo mutexId p
  | .unlockPreemption, p => s.ReleasesTo preemptionLockMutex p
  | .resetMutex mutexId processId, p => ∃ node i, s.isProcessIdExisted processId = some node
      ∧ (s.proc node.data).ownedMutexId = mutexId ∧ s.findMutexById mutexId = some i
      ∧ s.FirstIn (.mutex i) p
  | .stopSelf, p => ∃ c i, s.processCurrent = some c
      ∧ s.findMutexById (s.proc c.data).ownedMutexId = some i ∧ s.FirstIn (.mutex i) p
  | .getErrorStatus, p => s.errorListCb.nbErrors ≠ 0 ∧ s.FirstIn .errorProcesses p
  | _, _ => False

/-- What a service call needs a permission for, when its checks let it go that far. -/
def PermitsCall (A : Permit) (s : Pcb) : Service → Prop
  | .setPriority processId _ => ∀ node, s.isProcessIdExisted processId = some node →
      (s.proc node.data).processState ≠ .dormant → A.prioritize node.data ∧ A.requeue node.data
  | .suspendSelf timeOut => timeOut ≠ 0 → s.timeOutInvalid timeOut = false →
      MaySleep A s .suspendSelf (if timeOut = infiniteTimeValue then none else some (s.fromNow timeOut))
  | .timedWait delayTime => (0 < delayTime → MaySleep A s .timedWait (some (s.fromNow delayTime)))
      ∧ ∀ c, s.processCurrent = some c → s.cannotBlock c.data = false → A.requeue c.data
  | .periodicWait => MaySleep A s .periodicWait none
  | .suspend processId => ∀ node, s.isProcessIdExisted processId = some node →
      (s.proc node.data).attributes.period = infiniteTimeValue →
        (s.proc node.data).isSuspended = false →
          (s.proc node.data).processState ≠ .dormant → A.suspend s node.data
  | .resume processId => ∀ node, s.isProcessIdExisted processId = some node → A.resume s node.data
  | .stop processId => ∀ node, s.isProcessIdExisted processId = some node →
      (s.proc node.data).processState ≠ .dormant → A.stop s node.data
  | .start processId => ∀ node, s.isProcessIdExisted processId = some node →
      (s.proc node.data).processState = .dormant → A.start node.data false
  | .delayedStart processId _ => ∀ node, s.isProcessIdExisted processId = some node →
      (s.proc node.data).processState = .dormant → A.start node.data true
  | .lockPreemption => MayWaitForMutex A s preemptionLockMutex infiniteTimeValue ∧ MayAcquire A s
  | .acquireMutex mutexId timeOut => MayWaitForMutex A s mutexId timeOut ∧ MayAcquire A s
  | .stopSelf => ∀ c t, s.processCurrent = some c →
      (t.proc c.data).ownedMutexId = noMutexOwned ∨ Wakes s .stopSelf c.data → A.quit t c.data
  | .readBlackboard blackboardId timeOut => ∀ i, s.findBlackboardById blackboardId = some i →
      (s.res.blackboards i).emptyIndicator = .empty → MayBlock A s (.blackboard i) timeOut
  | .sendBuffer bufferId _ _ timeOut => ∀ i, s.findBufferById bufferId = some i →
      (s.res.buffers i).maxNbMessage ≤ (s.res.buffers i).nbMessage →
        MayBlock A s (.bufferWriters i) timeOut
  | .receiveBuffer bufferId timeOut _ => ∀ i, s.findBufferById bufferId = some i →
      (s.res.buffers i).nbMessage ≤ 0 → MayBlock A s (.bufferReaders i) timeOut
  | .waitSemaphore semaphoreId timeOut => ∀ i, s.findSemaphoreById semaphoreId = some i →
      (s.res.semaphores i).currentValue ≤ 0 → MayBlock A s (.semaphore i) timeOut
  | .waitEvent eventId timeOut => ∀ i, s.findEventById eventId = some i →
      (s.res.events i).eventState = .down → MayBlock A s (.event i) timeOut
  | .aperiodicWaitEvent eventId => ∀ i c, s.findEventById eventId = some i →
      s.processCurrent = some c → s.errorHandlerProcess = some c.data →
        (s.res.events i).eventState = .down →
          ∀ t, Noted s c.data t → A.block t c.data (.event i) none
  | .sendQueuingMessage queuingPortId _ _ timeOut => ∀ i c,
      s.findQueuingPortById queuingPortId = some i → (s.res.queuingPorts i).channel = some c →
        (s.res.queuingPorts i).portDirection = .source →
          ((s.krnl.queuingChannels c).maxNbMessages ≤ (s.krnl.queuingChannels c).currentNbMessages
            ∨ s.waitingProcesses (.queuingPort i) ≠ []) → MayBlock A s (.queuingPort i) timeOut
  | .receiveQueuingMessage queuingPortId timeOut => ∀ i c,
      s.findQueuingPortById queuingPortId = some i → (s.res.queuingPorts i).channel = some c →
        (s.res.queuingPorts i).portDirection = .destination →
          (s.krnl.queuingChannels c).currentNbMessages = 0 → MayBlock A s (.queuingPort i) timeOut
  | .createSamplingPort name maxMessageSize portDirection refreshPeriod => ∀ row,
      AcceptsSamplingPort s name maxMessageSize portDirection refreshPeriod row → A.port row true
  | .createQueuingPort name maxMessageSize maxNbMessage portDirection queuingDiscipline => ∀ row,
      AcceptsQueuingPort s name maxMessageSize maxNbMessage portDirection queuingDiscipline row →
        A.port row false
  | .raiseApplicationError _ _ _ => ∀ c, s.processCurrent = some c →
      MayIgnore A s (s.proc c.data).processId
        ∧ (s.errorHandlerProcess ≠ some c.data → s.errorListCb.nbErrors = s.errorListCb.maxErrors →
          A.block s c.data .errorProcesses none)
  | .createProcess attributes => A.create attributes.period
  | .createErrorHandler _ => A.create infiniteTimeValue
  | .setPartitionMode operatingMode =>
    ∀ mode, OperatingMode.ofInt? operatingMode = some mode → A.mode mode
  | _ => True

/-- At a new tick the loop looks at queuing port `index`. -/
def PortChecked (s : Pcb) (index : Nat) : Prop :=
  index < s.conf.maxQueuingPorts ∧ ∀ j ≤ index, (s.res.queuingPorts j).channel.isSome

/-- How many waiters of queuing port `index` a new tick may wake. -/
def portWakes (s : Pcb) (index : Nat) : Nat :=
  match (s.res.queuingPorts index).channel with
  | none => 0
  | some c =>
    (if (s.krnl.queuingChannels c).currentNbMessages < (s.krnl.queuingChannels c).maxNbMessages ∧
      (s.res.queuingPorts index).maxMessageSize = 0 then 1 else 0)
      + if 0 < (s.krnl.queuingChannels c).currentNbMessages ∧
        (s.res.queuingPorts index).portDirection = .destination then 1 else 0

/-- A new tick wakes process `p` at a queuing port. -/
def WokenAtPort (s : Pcb) (p : Nat) : Prop :=
  ∃ index, s.PortChecked index ∧ p ∈ (s.waitingProcesses (.queuingPort index)).take (s.portWakes index)

/-- The action may give a mutex back. -/
def GivesMutexBack : Action → Prop
  | .call .stopSelf | .call .unlockPreemption | .call (.releaseMutex _) | .call (.resetMutex _ _) => True
  | _ => False

/-- What a new tick does is allowed: releasing, timing out, and waking at the ports. -/
structure MayTick (A : Permit) (s : Pcb) : Prop where
  release : MayRelease A s
  expire : MayExpire A s.released
  ports : ∀ p, s.WokenAtPort p → A.wake p

/-- What an action needs a permission for. A process that owns a mutex may always give it back. -/
structure Permits (A : Permit) (s : Pcb) (e : Action) : Prop where
  giveBack : GivesMutexBack e → ∀ p i, i < s.res.mutexCount →
    (s.proc p).ownedMutexId = (s.res.mutexes i).mutexId → A.giveBack p
  call : ∀ service, e = .call service → PermitsCall A s service
  wake : ∀ service, e = .call service → ∀ p, Wakes s service p →
    (GivesMutexBack e → A.grant p) ∧ (¬ GivesMutexBack e → A.wake p)
  fault : ∀ errorCode a l, e = .fault errorCode a l → ∀ c, s.processCurrent = some c → A.error c.data
    ∧ MayIgnore A (s.modProc c.data fun x => { x with processState := .faulted })
      (s.proc c.data).processId
  loop : e = .loop → ¬ Starting s → A.dispatch ∧ (s.krnl.ticks ≠ s.lastTick → MayTick A s)

/-! ## Both of two permissions -/

theorem PermitsCall.inf {B : Permit} {service : Service} (h : PermitsCall A s service)
    (h' : PermitsCall B s service) : PermitsCall (A.inf B) s service := by
  have hblock : ∀ {q timeOut}, MayBlock A s q timeOut → MayBlock B s q timeOut →
      MayBlock (A.inf B) s q timeOut := fun hA hB hne hvalid c hc hcan t ht =>
    ⟨hA hne hvalid c hc hcan t ht, hB hne hvalid c hc hcan t ht⟩
  have hsleep : ∀ {k timer}, MaySleep A s k timer → MaySleep B s k timer →
      MaySleep (A.inf B) s k timer := fun hA hB c hc hcan hperiod =>
    ⟨hA c hc hcan hperiod, hB c hc hcan hperiod⟩
  have hwait : ∀ {mutexId timeOut}, MayWaitForMutex A s mutexId timeOut →
      MayWaitForMutex B s mutexId timeOut → MayWaitForMutex (A.inf B) s mutexId timeOut :=
    fun hA hB hne c i hc hi hmust => ⟨hA hne c i hc hi hmust, hB hne c i hc hi hmust⟩
  have hacquire : MayAcquire A s → MayAcquire B s → MayAcquire (A.inf B) s :=
    fun hA hB c hc hnot => ⟨hA c hc hnot, hB c hc hnot⟩
  cases service with
  | setPriority processId priority =>
      exact fun node hnode hstate => ⟨⟨(h node hnode hstate).1, (h' node hnode hstate).1⟩,
        ⟨(h node hnode hstate).2, (h' node hnode hstate).2⟩⟩
  | suspendSelf timeOut => exact fun hne hvalid => hsleep (h hne hvalid) (h' hne hvalid)
  | timedWait delayTime =>
      exact ⟨fun hpos => hsleep (h.1 hpos) (h'.1 hpos), fun c hc hcan => ⟨h.2 c hc hcan, h'.2 c hc hcan⟩⟩
  | periodicWait => exact hsleep h h'
  | suspend processId =>
      exact fun node hnode hperiod hsus hstate =>
        ⟨h node hnode hperiod hsus hstate, h' node hnode hperiod hsus hstate⟩
  | resume processId => exact fun node hnode => ⟨h node hnode, h' node hnode⟩
  | stop processId => exact fun node hnode hstate => ⟨h node hnode hstate, h' node hnode hstate⟩
  | start processId => exact fun node hnode hstate => ⟨h node hnode hstate, h' node hnode hstate⟩
  | delayedStart processId delayTime =>
      exact fun node hnode hstate => ⟨h node hnode hstate, h' node hnode hstate⟩
  | lockPreemption | acquireMutex _ _ => exact ⟨hwait h.1 h'.1, hacquire h.2 h'.2⟩
  | stopSelf => exact fun c t hc ht => ⟨h c t hc ht, h' c t hc ht⟩
  | readBlackboard _ _ | sendBuffer _ _ _ _ | receiveBuffer _ _ _ | waitSemaphore _ _ | waitEvent _ _ =>
      exact fun i hi hstate => hblock (h i hi hstate) (h' i hi hstate)
  | aperiodicWaitEvent eventId =>
      exact fun i c hi hc hhandler hstate t ht =>
        ⟨h i c hi hc hhandler hstate t ht, h' i c hi hc hhandler hstate t ht⟩
  | sendQueuingMessage _ _ _ _ | receiveQueuingMessage _ _ =>
      exact fun i c hi hc hdirection hfull =>
        hblock (h i c hi hc hdirection hfull) (h' i c hi hc hdirection hfull)
  | createSamplingPort _ _ _ _ | createQueuingPort _ _ _ _ _ =>
      exact fun row hrow => ⟨h row hrow, h' row hrow⟩
  | raiseApplicationError errorCode messageAddr length =>
      exact fun c hc => ⟨fun node hnode => ⟨(h c hc).1 node hnode, (h' c hc).1 node hnode⟩,
        fun hother hfull => ⟨(h c hc).2 hother hfull, (h' c hc).2 hother hfull⟩⟩
  | createProcess _ | createErrorHandler _ => exact ⟨h, h'⟩
  | setPartitionMode operatingMode => exact fun mode hmode => ⟨h mode hmode, h' mode hmode⟩
  | _ => trivial

theorem Permits.inf {B : Permit} {e : Action} (h : Permits A s e) (h' : Permits B s e) :
    Permits (A.inf B) s e where
  giveBack he p i hi hown := ⟨h.giveBack he p i hi hown, h'.giveBack he p i hi hown⟩
  call service he := (h.call service he).inf (h'.call service he)
  wake service he p hp :=
    have hA := h.wake service he p hp
    have hB := h'.wake service he p hp
    ⟨fun hgives => ⟨hA.1 hgives, hB.1 hgives⟩, fun hgives => ⟨hA.2 hgives, hB.2 hgives⟩⟩
  fault errorCode a l he c hc :=
    have hA := h.fault errorCode a l he c hc
    have hB := h'.fault errorCode a l he c hc
    ⟨⟨hA.1, hB.1⟩, fun node hnode => ⟨hA.2 node hnode, hB.2 node hnode⟩⟩
  loop he hstarting :=
    have hA := h.loop he hstarting
    have hB := h'.loop he hstarting
    ⟨⟨hA.1, hB.1⟩, fun hnew =>
      have ⟨hrelease, hexpire, hports⟩ := hA.2 hnew
      have ⟨hrelease', hexpire', hports'⟩ := hB.2 hnew
      ⟨fun p hp hdue => ⟨hrelease p hp hdue, hrelease' p hp hdue⟩,
        fun p hp hdue => ⟨hexpire p hp hdue, hexpire' p hp hdue⟩, fun p hp => ⟨hports p hp, hports' p hp⟩⟩⟩

/-! ## Control flow -/

theorem Running.congr (h : Running s) (hctl : s'.ctl = s.ctl) : Running s' := by
  rwa [Running, hctl]

theorem frame_moves (h : Frame s s') : Moves A s s' := .single (.frame h)

/-- A check that fails makes a service return at once. -/
theorem refused_moves {c : Prop} [Decidable c] {rc : ReturnCode} {o : Outcome}
    (h : ¬ c → Moves A s o.1) : Moves A s (if c then s.ret rc else o).1 := by
  by_cases hc : c
  · rw [if_pos hc]
    exact .refl
  · rw [if_neg hc]
    exact h hc

theorem withCurrent_moves {f : Node → Outcome}
    (h : ∀ node, s.processCurrent = some node → Moves A s (f node).1) :
    Moves A s (s.withCurrent f).1 := by
  rw [withCurrent]
  split
  · exact .single (.crash s)
  · next node hnode => exact h node hnode

theorem withProcess_moves {processId : Int} {f : Node → Outcome}
    (h : ∀ node, s.isProcessIdExisted processId = some node → Moves A s (f node).1) :
    Moves A s (s.withProcess processId f).1 := by
  rw [withProcess]
  split
  · exact .refl
  · next node hnode => exact h node hnode

/-- The caller yields. -/
theorem yield_moves {node : Node} (hrun : Running s) (hnode : s.processCurrent = some node)
    (k : Context) (hk : resumesPlainly k = true) :
    Moves A s (s.yieldToPartition node.data k).1 :=
  .single (.yield s node.data k ⟨hrun, node, hnode, rfl⟩ hk)

/-- The caller yields if it is a process. -/
theorem withCurrent_yield_moves (hrun : Running s) (k : Context)
    (hk : resumesPlainly k = true) :
    Moves A s (s.withCurrent fun node => s.yieldToPartition node.data k).1 :=
  withCurrent_moves fun _ hnode => yield_moves hrun hnode k hk

theorem isMutex_of_find {mutexId : Int} {i : Nat} (h : s.findMutexById mutexId = some i) :
    IsMutex s i mutexId :=
  ⟨(findIndex_eq_some h).1, by simpa using (findIndex_eq_some h).2⟩

/-! ## Contents that nothing else depends on -/

/-- The contents of the resources other than mutexes and ports, and the history. -/
theorem frame_contents (s : Pcb) (blackboards : Nat → Blackboard) (blackboardCount : Nat)
    (blackboardsData : Area) (blackboardsSizeData : Nat → Int) (buffers : Nat → Buffer)
    (bufferCount : Nat) (buffersData : Area) (buffersSizeData : Nat → Nat)
    (semaphores : Nat → Semaphore) (semaphoreCount : Nat) (events : Nat → Event)
    (eventCount : Nat) (log : List Obs) :
    Frame s { s with
      res := { s.res with
        blackboards := blackboards, blackboardCount := blackboardCount
        blackboardsData := blackboardsData, blackboardsSizeData := blackboardsSizeData
        buffers := buffers, bufferCount := bufferCount
        buffersData := buffersData, buffersSizeData := buffersSizeData
        semaphores := semaphores, semaphoreCount := semaphoreCount
        events := events, eventCount := eventCount }
      log := log } :=
  ⟨rfl, rfl, rfl, rfl, rfl, rfl, rfl, rfl, rfl, rfl, rfl,
    ⟨rfl, rfl, rfl, fun _ => rfl, fun _ => rfl⟩, ⟨rfl, rfl, fun _ => ⟨_, rfl⟩, rfl⟩⟩

/-- The contents of the kernel's memory. -/
theorem frame_krnl {s : Pcb} {krnl : Krnl}
    (htable : krnl.systemPortTable = s.krnl.systemPortTable)
    (hsampling : ∀ c, (krnl.samplingChannels c).maxMessageSize
      = (s.krnl.samplingChannels c).maxMessageSize)
    (hqueuing : ∀ c, (krnl.queuingChannels c).maxMessageSize
      = (s.krnl.queuingChannels c).maxMessageSize) : Frame s { s with krnl := krnl } :=
  ⟨rfl, rfl, rfl, rfl, rfl, rfl, rfl, rfl, rfl, rfl, rfl,
    ⟨rfl, rfl, htable, hsampling, hqueuing⟩, ⟨rfl, rfl, fun _ => ⟨_, rfl⟩, rfl⟩⟩

/-- A channel whose size stays. -/
theorem frame_setQueuingChannel (s : Pcb) (c : Nat) (x : QueuingChannel)
    (h : x.maxMessageSize = (s.krnl.queuingChannels c).maxMessageSize) :
    Frame s (s.setQueuingChannel c x) :=
  frame_krnl rfl (fun _ => rfl) fun c' => by
    show (Function.update s.krnl.queuingChannels c x c').maxMessageSize = _
    by_cases hc : c' = c
    · rw [hc, Function.update_self, h]
    · rw [Function.update_of_ne hc]

/-- The error list, the lock level, the tick and the counters of the allocator. -/
theorem frame_counters (s : Pcb) (lockLevel : Int) (errorListCb : ErrorList) (lastTick : Nat)
    (nbrProcesses idNext nextStackAddr nextNode : Nat) :
    Frame s { s with
      status := { s.status with lockLevel := lockLevel }
      errorListCb := errorListCb, lastTick := lastTick
      nbrProcesses := nbrProcesses, idNext := idNext, nextStackAddr := nextStackAddr
      nextNode := nextNode } :=
  ⟨rfl, rfl, rfl, rfl, rfl, rfl, rfl, rfl, rfl, rfl, rfl,
    ⟨rfl, rfl, rfl, fun _ => rfl, fun _ => rfl⟩, ⟨rfl, rfl, fun _ => ⟨_, rfl⟩, rfl⟩⟩

/-! ## Blocking and waking -/

/-- A blocking service that has passed its checks: the caller waits in list `q`. -/
theorem block_moves {node : Node} {q : WaitList} {linked : Bool} {discipline : QueuingDiscipline}
    {timer : Option Int} {k : Context} (hrun : Running s) (hnode : s.processCurrent = some node)
    (hkind : q.kind.isSome) (hq : ∀ i, q ≠ .mutex i)
    (hA : A.block s node.data q timer) (hport : portOf k = none)
    (hfrom : ResumesFrom q k) :
    Moves A s ((s.waitOn node.data q linked discipline timer).yieldToPartition node.data k).1 :=
  .single (.block s _ q linked discipline timer k ⟨hrun, node, hnode, rfl⟩ hkind
    (fun i hi => absurd hi (hq i)) (fun i hi => by rw [hport] at hi; cases hi) hfrom.ne_suspendSelf hA
    hfrom)

/-- The process woken was the first of the list. -/
theorem wakeFirst_firstIn {q : WaitList} {cancel : Bool} {p : Nat}
    (h : s.wakeFirst q cancel = some (p, s')) : s.FirstIn q p := by
  obtain ⟨rest, hlist, -⟩ := wakeFirst_eq_some h
  exact ⟨rest, hlist⟩

/-- Waking leaves the caller the current process. -/
theorem wakeFirst_caller {q : WaitList} {cancel : Bool} {p : Nat}
    (h : s.wakeFirst q cancel = some (p, s')) :
    s'.processCurrent = s.processCurrent ∧ s'.ctl = s.ctl := by
  obtain ⟨rest, -, rfl⟩ := wakeFirst_eq_some h
  exact ⟨rfl, rfl⟩

theorem wakeAllAux_caller (q : WaitList) (n : Nat) (s : Pcb) :
    (wakeAllAux q n s).processCurrent = s.processCurrent ∧ (wakeAllAux q n s).ctl = s.ctl := by
  induction n generalizing s with
  | zero => exact ⟨rfl, rfl⟩
  | succ n ih =>
      rw [wakeAllAux]
      split
      · exact ⟨rfl, rfl⟩
      · next p s' h =>
          exact ⟨(ih s').1.trans (wakeFirst_caller h).1, (ih s').2.trans (wakeFirst_caller h).2⟩

theorem wakeAll_caller (q : WaitList) (s : Pcb) :
    (s.wakeAll q).processCurrent = s.processCurrent ∧ (s.wakeAll q).ctl = s.ctl :=
  wakeAllAux_caller q _ s

theorem wakeAll_moves {q : WaitList} (hq : ∀ i, q ≠ .mutex i) (s : Pcb)
    (hA : ∀ p ∈ s.waitingProcesses q, A.wake p) (hcancel : true = cancelsTimer q) :
    Moves A s (s.wakeAll q) := by
  rw [wakeAll]
  generalize (s.waitingProcesses q).length = n
  induction n generalizing s with
  | zero => exact .refl
  | succ n ih =>
      rw [wakeAllAux]
      split
      · exact .refl
      · next p s' h =>
          obtain ⟨rest, hlist, hs'⟩ := wakeFirst_eq_some h
          rw [hlist] at hA
          refine .head (.wake q true p h hq (hA p List.mem_cons_self) hcancel) (ih s' fun p' hp' => ?_)
          rw [hs'] at hp'
          dsimp only at hp'
          rw [Function.update_self] at hp'
          exact hA p' (List.mem_cons_of_mem p hp')

/-- Every waiter is woken, and the caller yields. -/
theorem wakeAll_yield_moves {q : WaitList} (hq : ∀ i, q ≠ .mutex i) (hrun : Running s)
    (hA : ∀ p ∈ s.waitingProcesses q, A.wake p) (k : Context) (hk : resumesPlainly k = true)
    (hcancel : true = cancelsTimer q) :
    Moves A s ((s.wakeAll q).withCurrent fun node =>
      (s.wakeAll q).yieldToPartition node.data k).1 :=
  .trans (wakeAll_moves hq s hA hcancel) (withCurrent_yield_moves (hrun.congr (wakeAll_caller q s).2) k hk)

/-! ## Blackboards -/

theorem createBlackboard_moves (name : Name) (maxMessageSize : Int) :
    Moves A s (s.createBlackboard name maxMessageSize).1 := by
  unfold createBlackboard
  split_ifs with h1 h2 h3 hmode
  iterate 4 exact .refl
  exact .head (.freshLists s .blackboard s.res.blackboardCount hmode)
    (frame_moves (frame_contents _ _ _ _ _ _ _ _ _ _ _ _ _ _))

theorem displayBlackboard_moves (hrun : Running s) {blackboardId : Int} {messageAddr : Area}
    {length : Int} (hwake : ∀ p, Wakes s (.displayBlackboard blackboardId messageAddr length) p → A.wake p) :
    Moves A s (s.displayBlackboard blackboardId messageAddr length).1 := by
  unfold displayBlackboard
  split
  · exact .refl
  · next index hindex =>
      dsimp only
      split_ifs with hsize hlen hwait
      · exact .refl
      · exact .refl
      · refine .trans ?_ (wakeAll_yield_moves (fun i hi => WaitList.noConfusion hi) ?_ ?_ _ rfl rfl)
        · exact frame_moves (frame_contents s _ _ _ _ _ _ _ _ _ _ _ _ _)
        · exact hrun
        · exact fun p hp => hwake p ⟨index, hindex, not_lt.mp hsize, not_le.mp hlen, hp⟩
      · refine .trans ?_ (wakeAll_moves (fun i hi => WaitList.noConfusion hi) _ ?_ rfl)
        · exact frame_moves (frame_contents s _ _ _ _ _ _ _ _ _ _ _ _ _)
        · exact fun p hp => hwake p ⟨index, hindex, not_lt.mp hsize, not_le.mp hlen, hp⟩

theorem readBlackboard_moves (hrun : Running s) {blackboardId timeOut : Int}
    (hA : PermitsCall A s (.readBlackboard blackboardId timeOut)) :
    Moves A s (s.readBlackboard blackboardId timeOut).1 := by
  unfold readBlackboard
  split
  · exact .refl
  · next index hindex =>
      by_cases hinvalid : s.timeOutInvalid timeOut = true
      · rw [if_pos hinvalid]
        exact .refl
      · rw [if_neg hinvalid]
        refine withCurrent_moves fun node hnode => ?_
        dsimp only
        split_ifs with hfull hzero hcannot hinf
        iterate 3 exact .refl
        all_goals
          have hempty : (s.res.blackboards index).emptyIndicator = .empty := by
            cases h : (s.res.blackboards index).emptyIndicator with
            | empty => rfl
            | occupied => exact absurd h hfull
          have hmay := hA index hindex hempty hzero (by simpa using hinvalid) node hnode
            (by simpa using hcannot) s (Or.inl rfl)
        · rw [if_pos hinf] at hmay
          exact block_moves hrun hnode rfl (fun i hi => WaitList.noConfusion hi) hmay rfl (by constructor)
        · rw [if_neg hinf] at hmay
          exact block_moves hrun hnode rfl (fun i hi => WaitList.noConfusion hi) hmay rfl (by constructor)

theorem clearBlackboard_moves (blackboardId : Int) :
    Moves A s (s.clearBlackboard blackboardId).1 := by
  unfold clearBlackboard
  split
  · exact .refl
  · exact frame_moves (frame_contents s _ _ _ _ _ _ _ _ _ _ _ _ _)

/-! ## Buffers -/

theorem createBuffer_moves (name : Name) (maxMessageSize maxNbMessage discipline : Int) :
    Moves A s (s.createBuffer name maxMessageSize maxNbMessage discipline).1 := by
  unfold createBuffer
  cases QueuingDiscipline.ofInt? discipline with
  | none =>
      dsimp only
      split_ifs
      all_goals exact .refl
  | some d =>
      dsimp only
      split_ifs with h1 h2 h3 h4 hmode
      iterate 5 exact .refl
      exact .head (.freshLists s .buffer s.res.bufferCount hmode)
        (frame_moves (frame_contents _ _ _ _ _ _ _ _ _ _ _ _ _ _))

theorem storeMessage_moves (s : Pcb) (index : Nat) (messageAddr : Area) (length : Int) :
    Moves A s (s.storeMessage index messageAddr length) :=
  frame_moves (frame_contents s _ _ _ _ _ _ _ _ _ _ _ _ _)

theorem takeMessage_moves (s : Pcb) (index p : Nat) : Moves A s (s.takeMessage index p) :=
  frame_moves (frame_contents s _ _ _ _ _ _ _ _ _ _ _ _ _)

theorem emit_moves (s : Pcb) (o : Obs) : Moves A s (s.emit o) :=
  frame_moves (frame_contents s _ _ _ _ _ _ _ _ _ _ _ _ _)

theorem receivedMessage_moves (s : Pcb) (index p : Nat) (message : List UInt8) (length : Int) :
    Moves A s (s.receivedMessage index p message length).1 :=
  frame_moves (frame_contents s _ _ _ _ _ _ _ _ _ _ _ _ _)

/-- The message a process sends or the area it receives in. -/
theorem touched_message (area : Process → Area) (size : Process → Int) (x : Process) :
    Touched x { x with waitingMessage := area x, waitingMessageSize := size x } :=
  ⟨rfl, rfl, rfl, rfl, rfl, rfl, rfl, rfl, rfl, rfl, rfl, rfl, rfl, rfl⟩

theorem touch_message (s : Pcb) (p : Nat) (area : Process → Area) (size : Process → Int) :
    Move A s (s.modProc p fun x =>
      { x with waitingMessage := area x, waitingMessageSize := size x }) :=
  .touch s p _ (touched_message area size) (Or.inr fun _ => rfl)

theorem sendBuffer_moves (hrun : Running s) {bufferId : Int} {messageAddr : Area}
    {length timeOut : Int} (hA : PermitsCall A s (.sendBuffer bufferId messageAddr length timeOut))
    (hwakes : ∀ p, Wakes s (.sendBuffer bufferId messageAddr length timeOut) p → A.wake p) :
    Moves A s (s.sendBuffer bufferId messageAddr length timeOut).1 := by
  unfold sendBuffer
  split
  · exact .refl
  · next index hindex =>
      dsimp only
      refine refused_moves fun hsize => ?_
      refine refused_moves fun hlen => ?_
      refine refused_moves fun hinvalid => ?_
      refine withCurrent_moves fun node hnode => ?_
      by_cases hroom : (s.res.buffers index).nbMessage < (s.res.buffers index).maxNbMessage
      · rw [if_pos hroom]
        split
        · exact storeMessage_moves s index messageAddr length
        · next reader t hwake =>
            -- the reader is woken, its area is written, the caller yields
            obtain ⟨hcur, hctl⟩ := wakeFirst_caller hwake
            refine .head (.wake _ _ _ hwake (fun i hi => WaitList.noConfusion hi)
              (hwakes reader ⟨index, hindex, not_le.mp hsize, not_le.mp hlen, by simpa using hinvalid, hroom,
                wakeFirst_firstIn hwake⟩) rfl) ?_
            refine .trans ?_ (yield_moves ?_ ?_ _ rfl)
            · exact .trans (.trans (.single (touch_message t reader _ _)) (emit_moves _ _))
                (emit_moves _ _)
            · exact hrun.congr hctl
            · exact hcur.trans hnode
      · rw [if_neg hroom]
        split_ifs with hzero hcannot hinf
        iterate 2 exact .refl
        all_goals
          have hmay := hA index hindex (not_lt.mp hroom) hzero (by simpa using hinvalid) node hnode
            (by simpa using hcannot) _ (Or.inr ⟨_, touched_message (fun _ => messageAddr) fun _ => length, rfl⟩)
          refine .head (touch_message s node.data (fun _ => messageAddr) fun _ => length) ?_
        · rw [if_pos hinf] at hmay
          exact block_moves hrun hnode rfl (fun i hi => WaitList.noConfusion hi) hmay rfl (by constructor)
        · rw [if_neg hinf] at hmay
          exact block_moves hrun hnode rfl (fun i hi => WaitList.noConfusion hi) hmay rfl (by constructor)

theorem receiveBuffer_moves (hrun : Running s) {bufferId timeOut : Int} {messageAddr : Area}
    (hA : PermitsCall A s (.receiveBuffer bufferId timeOut messageAddr))
    (hwakes : ∀ p, Wakes s (.receiveBuffer bufferId timeOut messageAddr) p → A.wake p) :
    Moves A s (s.receiveBuffer bufferId timeOut messageAddr).1 := by
  unfold receiveBuffer
  split
  · exact .refl
  · next index hindex =>
      refine refused_moves fun hinvalid => ?_
      refine withCurrent_moves fun node hnode => ?_
      dsimp only
      by_cases hsome : 0 < (s.res.buffers index).nbMessage
      · rw [if_pos hsome]
        refine .trans (takeMessage_moves s index node.data) ?_
        split
        · exact receivedMessage_moves _ index node.data _ _
        · next writer t hwake =>
            obtain ⟨hcur, hctl⟩ := wakeFirst_caller hwake
            have hfirst : s.FirstIn (.bufferWriters index) writer :=
              wakeFirst_firstIn (s := s.takeMessage index node.data) hwake
            refine .head (.wake _ _ _ hwake (fun i hi => WaitList.noConfusion hi)
              (hwakes writer ⟨index, hindex, by simpa using hinvalid, hsome, hfirst⟩) rfl) ?_
            refine .trans ?_ (yield_moves ?_ ?_ _ rfl)
            · exact storeMessage_moves t index _ _
            · exact hrun.congr hctl
            · exact hcur.trans hnode
      · rw [if_neg hsome]
        split_ifs with hzero hcannot hinf
        iterate 2 exact .refl
        all_goals
          have hmay := hA index hindex (not_lt.mp hsome) hzero (by simpa using hinvalid) node hnode
            (by simpa using hcannot) _ (Or.inr ⟨_, touched_message (fun _ => messageAddr)
              fun x => x.waitingMessageSize, rfl⟩)
          refine .head (touch_message s node.data (fun _ => messageAddr) fun x =>
            x.waitingMessageSize) ?_
        · rw [if_pos hinf] at hmay
          exact block_moves hrun hnode rfl (fun i hi => WaitList.noConfusion hi) hmay rfl (by constructor)
        · rw [if_neg hinf] at hmay
          exact block_moves hrun hnode rfl (fun i hi => WaitList.noConfusion hi) hmay rfl (by constructor)

/-! ## Semaphores -/

theorem createSemaphore_moves (name : Name) (currentValue maximumValue discipline : Int) :
    Moves A s (s.createSemaphore name currentValue maximumValue discipline).1 := by
  unfold createSemaphore
  cases QueuingDiscipline.ofInt? discipline with
  | none =>
      dsimp only
      split_ifs
      all_goals exact .refl
  | some d =>
      dsimp only
      split_ifs with h1 h2 h3 h4 h5 hmode
      iterate 6 exact .refl
      exact .head (.freshLists s .semaphore s.res.semaphoreCount hmode)
        (frame_moves (frame_contents _ _ _ _ _ _ _ _ _ _ _ _ _ _))

theorem waitSemaphore_moves (hrun : Running s) {semaphoreId timeOut : Int}
    (hA : PermitsCall A s (.waitSemaphore semaphoreId timeOut)) :
    Moves A s (s.waitSemaphore semaphoreId timeOut).1 := by
  unfold waitSemaphore
  split
  · exact .refl
  · next index hindex =>
      refine refused_moves fun hinvalid => ?_
      refine withCurrent_moves fun node hnode => ?_
      dsimp only
      split_ifs with hsome hzero hcannot hinf
      · exact frame_moves (frame_contents s _ _ _ _ _ _ _ _ _ _ _ _ _)
      iterate 2 exact .refl
      all_goals
        have hmay := hA index hindex (not_lt.mp hsome) hzero (by simpa using hinvalid) node hnode
          (by simpa using hcannot) s (Or.inl rfl)
      · rw [if_pos hinf] at hmay
        exact block_moves hrun hnode rfl (fun i hi => WaitList.noConfusion hi) hmay rfl (by constructor)
      · rw [if_neg hinf] at hmay
        exact block_moves hrun hnode rfl (fun i hi => WaitList.noConfusion hi) hmay rfl (by constructor)

theorem signalSemaphore_moves (hrun : Running s) {semaphoreId : Int}
    (hwakes : ∀ p, Wakes s (.signalSemaphore semaphoreId) p → A.wake p) : Moves A s (s.signalSemaphore semaphoreId).1 := by
  unfold signalSemaphore
  split
  · exact .refl
  · next index hindex =>
      dsimp only
      refine refused_moves fun hmax => ?_
      split
      · exact frame_moves (frame_contents s _ _ _ _ _ _ _ _ _ _ _ _ _)
      · next p t hwake =>
          exact .head (.wake _ _ _ hwake (fun i hi => WaitList.noConfusion hi)
              (hwakes p ⟨index, hindex, hmax, wakeFirst_firstIn hwake⟩) rfl)
            (withCurrent_yield_moves (hrun.congr (wakeFirst_caller hwake).2) _ rfl)

/-! ## Events -/

theorem createEvent_moves (name : Name) : Moves A s (s.createEvent name).1 := by
  unfold createEvent
  split_ifs with h1 h2 hmode
  iterate 3 exact .refl
  exact .head (.freshLists s .event s.res.eventCount hmode)
    (frame_moves (frame_contents _ _ _ _ _ _ _ _ _ _ _ _ _ _))

theorem setEventRecord_moves (s : Pcb) (index : Nat) (x : Event) :
    Moves A s (s.setEventRecord index x) :=
  frame_moves (frame_contents s _ _ _ _ _ _ _ _ _ _ _ _ _)

theorem setEvent_moves (hrun : Running s) {eventId : Int}
    (hwakes : ∀ p, Wakes s (.setEvent eventId) p → A.wake p) : Moves A s (s.setEvent eventId).1 := by
  unfold setEvent
  split
  · exact .refl
  · next index hindex =>
      refine .trans (setEventRecord_moves s index { s.res.events index with eventState := .up }) ?_
      dsimp only
      split_ifs
      · exact .refl
      · refine withCurrent_moves fun node hnode => ?_
        refine .trans (wakeAll_moves (fun i hi => WaitList.noConfusion hi) _
          (fun p hp => hwakes p ⟨index, hindex, hp⟩) rfl) (yield_moves ?_ ?_ _ rfl)
        · exact hrun.congr (wakeAll_caller (.event index) _).2
        · exact (wakeAll_caller (.event index) _).1.trans hnode

theorem resetEvent_moves (eventId : Int) : Moves A s (s.resetEvent eventId).1 := by
  unfold resetEvent
  split
  · exact .refl
  · exact frame_moves (frame_contents s _ _ _ _ _ _ _ _ _ _ _ _ _)

theorem waitEvent_moves (hrun : Running s) {eventId timeOut : Int}
    (hA : PermitsCall A s (.waitEvent eventId timeOut)) :
    Moves A s (s.waitEvent eventId timeOut).1 := by
  unfold waitEvent
  split
  · exact .refl
  · next index hindex =>
      refine refused_moves fun hinvalid => ?_
      refine withCurrent_moves fun node hnode => ?_
      dsimp only
      split_ifs with hup hzero hcannot hinf
      iterate 3 exact .refl
      all_goals
        have hdown : (s.res.events index).eventState = .down := by
          cases h : (s.res.events index).eventState with
          | down => rfl
          | up => exact absurd h hup
        have hmay := hA index hindex hdown hzero (by simpa using hinvalid) node hnode
          (by simpa using hcannot) s (Or.inl rfl)
      · rw [if_pos hinf] at hmay
        exact block_moves hrun hnode rfl (fun i hi => WaitList.noConfusion hi) hmay rfl (by constructor)
      · rw [if_neg hinf] at hmay
        exact block_moves hrun hnode rfl (fun i hi => WaitList.noConfusion hi) hmay rfl (by constructor)

/-- A new deadline. -/
theorem touched_deadline (deadline : Process → Int) (x : Process) :
    Touched x { x with deadlineTime := deadline x } :=
  ⟨rfl, rfl, rfl, rfl, rfl, rfl, rfl, rfl, rfl, rfl, rfl, rfl, rfl, rfl⟩

/-- Only the process that executes sets its deadline so. -/
theorem touch_deadline {p : Nat} (hcalls : Calls s p) (deadline : Process → Int) :
    Move A s (s.modProc p fun x => { x with deadlineTime := deadline x }) :=
  .touch s p _ (touched_deadline deadline) (Or.inl hcalls)

theorem finishAperiodicWaitEvent_moves {p : Nat} (hcalls : Calls s p) :
    Moves A s (s.finishAperiodicWaitEvent p).1 := by
  unfold finishAperiodicWaitEvent
  dsimp only
  split_ifs
  · exact .refl
  · exact .single (touch_deadline hcalls fun x => (updateProcessDeadline s.krnl.uptime x).deadlineTime)

theorem aperiodicWaitEvent_moves (hrun : Running s) {eventId : Int}
    (hA : PermitsCall A s (.aperiodicWaitEvent eventId)) :
    Moves A s (s.aperiodicWaitEvent eventId).1 := by
  unfold aperiodicWaitEvent
  refine withCurrent_moves fun node hnode => ?_
  dsimp only
  refine refused_moves fun hcaller => ?_
  have hhandler : s.errorHandlerProcess = some node.data := by
    by_contra hne
    exact hcaller (Or.inl hne)
  split
  · exact .refl
  · next index hindex =>
      split_ifs with hperiod howns hup
      iterate 2 exact .refl
      · exact .head (touch_deadline ⟨hrun, node, hnode, rfl⟩ _)
          (finishAperiodicWaitEvent_moves ⟨hrun, node, hnode, rfl⟩)
      · have hdown : (s.res.events index).eventState = .down := by
          cases h : (s.res.events index).eventState with
          | down => rfl
          | up => exact absurd h hup
        refine .head (touch_deadline ⟨hrun, node, hnode, rfl⟩ _)
          (block_moves hrun hnode rfl ?_ ?_ rfl (by constructor))
        · exact fun i hi => WaitList.noConfusion hi
        · exact hA index node hindex hnode hhandler hdown _
            (Or.inr ⟨_, touched_deadline fun _ => infiniteTimeValue, rfl⟩)

/-! ## Ports -/

/-- An accepted direction is the one configured. -/
theorem checkPortDirectionInConf_eq {row : PortMapping} {portDirection : Int} {d : PortDirection}
    (h : checkPortDirectionInConf row portDirection = some d) : d = row.portDirection := by
  obtain ⟨-, hd⟩ := Option.filter_eq_some_iff.mp h
  exact of_decide_eq_true hd

/-- The row found carries the name looked for. -/
theorem checkPortInConfTable_name {name : Name} {row : PortMapping}
    (h : s.checkPortInConfTable name = some row) : name = row.portName := by
  unfold checkPortInConfTable at h
  have hname := List.find?_some h
  exact of_decide_eq_true hname

theorem createSamplingPort_moves {name : Name} {maxMessageSize portDirection refreshPeriod : Int}
    (hA : PermitsCall A s
      (.createSamplingPort name maxMessageSize portDirection refreshPeriod)) :
    Moves A s (s.createSamplingPort name maxMessageSize portDirection refreshPeriod).1 := by
  unfold createSamplingPort
  refine refused_moves fun hroom => ?_
  rw [not_or, not_lt, not_lt] at hroom
  cases hrow : s.checkPortInConfTable name with
  | none => exact .refl
  | some row =>
      dsimp only
      cases hdir : checkPortDirectionInConf row portDirection with
      | none =>
          dsimp only
          split_ifs
          all_goals exact .refl
      | some d =>
          dsimp only
          split_ifs with hfresh hsize hrefresh hmode
          iterate 4 exact .refl
          rw [not_or, not_le, Bool.not_eq_false] at hsize
          rw [not_or, not_lt, Bool.not_eq_true] at hrefresh
          have hsize_eq : maxMessageSize = row.messageSizeBytes := of_decide_eq_true hsize.2
          have haccept : AcceptsSamplingPort s name maxMessageSize portDirection refreshPeriod row :=
            ⟨hroom.1, hroom.2, hrow, by simpa using hfresh, hsize.1, hsize_eq,
              by rw [hdir]; rfl, hrefresh, hmode⟩
          refine .single (.newSamplingPort s row _ hmode (List.mem_of_find?_eq_some hrow) ?_
            (hA row haccept))
          exact ⟨congrArg strncpyName (checkPortInConfTable_name hrow), hsize_eq,
            checkPortDirectionInConf_eq hdir, rfl⟩

theorem createQueuingPort_moves {name : Name}
    {maxMessageSize maxNbMessage portDirection queuingDiscipline : Int}
    (hA : PermitsCall A s
      (.createQueuingPort name maxMessageSize maxNbMessage portDirection queuingDiscipline)) :
    Moves A s
      (s.createQueuingPort name maxMessageSize maxNbMessage portDirection queuingDiscipline).1 := by
  unfold createQueuingPort
  refine refused_moves fun hroom => ?_
  rw [not_or, not_lt, not_lt] at hroom
  cases hrow : s.checkPortInConfTable name with
  | none => exact .refl
  | some row =>
      dsimp only
      cases hdir : checkPortDirectionInConf row portDirection with
      | none =>
          dsimp only
          split_ifs
          all_goals exact .refl
      | some d =>
          cases hdisc : QueuingDiscipline.ofInt? queuingDiscipline with
          | none =>
              dsimp only
              split_ifs
              all_goals exact .refl
          | some discipline =>
              dsimp only
              split_ifs with hfresh hsize hnumber hmode
              iterate 4 exact .refl
              rw [not_or, not_le, Bool.not_eq_false] at hsize
              rw [not_or, not_le, not_lt] at hnumber
              have hsize_eq : maxMessageSize = row.messageSizeBytes := of_decide_eq_true hsize.2
              have haccept : AcceptsQueuingPort s name maxMessageSize maxNbMessage portDirection
                  queuingDiscipline row :=
                ⟨hroom.1, hroom.2, hrow, by simpa using hfresh, hsize.1, hsize_eq, hnumber,
                  by rw [hdir]; rfl, by rw [hdisc]; rfl, hmode⟩
              refine .tail (.single (.newQueuingPort s row _ hmode (List.mem_of_find?_eq_some hrow)
                ?_ (hA row haccept))) (.freshLists _ .queuingPort s.res.queuingPortCount hmode)
              exact ⟨congrArg strncpyName (checkPortInConfTable_name hrow), hsize_eq,
            checkPortDirectionInConf_eq hdir, rfl⟩

/-- The contents of a sampling channel. -/
theorem frame_setSamplingChannel (s : Pcb) (c : Nat) (x : SamplingChannel)
    (h : x.maxMessageSize = (s.krnl.samplingChannels c).maxMessageSize) :
    Frame s { s with krnl := { s.krnl with
      samplingChannels := Function.update s.krnl.samplingChannels c x } } := by
  refine frame_krnl rfl (fun c' => ?_) fun _ => rfl
  show (Function.update s.krnl.samplingChannels c x c').maxMessageSize = _
  by_cases hc : c' = c
  · rw [hc, Function.update_self, h]
  · rw [Function.update_of_ne hc]

theorem writeSamplingMessage_moves (samplingPortId : Int) (messageAddr : Area) (length : Int) :
    Moves A s (s.writeSamplingMessage samplingPortId messageAddr length).1 := by
  unfold writeSamplingMessage
  split
  · exact .refl
  · next index hindex =>
      dsimp only
      split_ifs
      iterate 3 exact .refl
      split
      · exact .single (.crash s)
      · exact frame_moves (frame_setSamplingChannel s _ _ rfl)

theorem readSamplingMessage_moves (samplingPortId : Int) :
    Moves A s (s.readSamplingMessage samplingPortId).1 := by
  unfold readSamplingMessage
  split
  · exact .refl
  · next index hindex =>
      dsimp only
      split_ifs
      · exact .refl
      · split
        · exact .single (.crash s)
        · refine frame_moves ⟨rfl, rfl, rfl, rfl, rfl, rfl, rfl, rfl, rfl, rfl, rfl,
            ⟨rfl, rfl, rfl, fun _ => rfl, fun _ => rfl⟩, ⟨rfl, rfl, fun i => ?_, rfl⟩⟩
          -- only the validity of the port read changes
          by_cases hi : i = index
          · subst hi
            exact ⟨_, Function.update_self _ _ _⟩
          · exact ⟨_, Function.update_of_ne hi _ _⟩

theorem setQueuingChannel_moves {s : Pcb} {c : Nat} {x : QueuingChannel}
    (h : x.maxMessageSize = (s.krnl.queuingChannels c).maxMessageSize) :
    Moves A s (s.setQueuingChannel c x) :=
  frame_moves (frame_setQueuingChannel s c x h)

/-- The caller waits on a port. -/
theorem waitOnPort_moves {node : Node} {index : Nat} {timeOut : Int} {k : Context}
    (hrun : Running s) (hnode : s.processCurrent = some node)
    (hcannot : ¬ s.cannotBlock node.data = true) (hzero : timeOut ≠ 0)
    (hvalid : ¬ s.timeOutInvalid timeOut = true)
    (hfrom : ResumesFrom (.queuingPort index) k) (hindex : index < s.res.queuingPortCount)
    (hA : MayBlock A s (.queuingPort index) timeOut) :
    Moves A s ((s.waitOnPort index node.data timeOut).yieldToPartition node.data k).1 := by
  have hmay := hA hzero (by simpa using hvalid) node hnode (by simpa using hcannot) s (Or.inl rfl)
  unfold waitOnPort
  refine .single (.block s _ _ _ _ _ k ⟨hrun, node, hnode, rfl⟩ rfl
    (fun i hi => WaitList.noConfusion hi) (fun i hi => ?_) hfrom.ne_suspendSelf ?_ hfrom)
  · cases hfrom.portOf hi
    exact hindex
  by_cases hinf : timeOut = infiniteTimeValue
  · rw [if_pos hinf] at hmay
    rw [if_neg (not_not.mpr hinf)]
    exact hmay
  · rw [if_neg hinf] at hmay
    rw [if_pos hinf]
    exact hmay

-- with the record destructed: comparing the records whole would unfold their counters
theorem channelDequeue_maxMessageSize (x : QueuingChannel) :
    x.channelDequeue.maxMessageSize = x.maxMessageSize := by
  cases x
  rfl

theorem takeFromChannel_moves (s : Pcb) (c : Nat) : Moves A s (s.takeFromChannel c).1 := by
  have hsize := channelDequeue_maxMessageSize (s.krnl.queuingChannels c)
  unfold takeFromChannel
  exact setQueuingChannel_moves hsize

theorem sendQueuingMessage_moves (hrun : Running s) {queuingPortId : Int} {messageAddr : Area}
    {length timeOut : Int}
    (hA : PermitsCall A s (.sendQueuingMessage queuingPortId messageAddr length timeOut)) :
    Moves A s (s.sendQueuingMessage queuingPortId messageAddr length timeOut).1 := by
  unfold sendQueuingMessage
  split
  · exact .refl
  · next index hindex =>
      dsimp only
      refine refused_moves fun hinvalid => ?_
      refine refused_moves fun hsize => ?_
      refine refused_moves fun hlen => ?_
      refine refused_moves fun hdir => ?_
      refine withCurrent_moves fun node hnode => ?_
      split
      · exact .single (.crash s)
      · next c hc =>
          split_ifs with hroom hzero hcannot
          · exact setQueuingChannel_moves rfl
          iterate 2 exact .refl
          refine waitOnPort_moves hrun hnode hcannot hzero hinvalid (by constructor) (findIndex_eq_some hindex).1
            (hA index c hindex hc (not_not.mp hdir) ?_)
          rw [← not_lt]
          exact not_and_or.mp hroom

theorem receiveQueuingMessage_moves (hrun : Running s) {queuingPortId timeOut : Int}
    (hA : PermitsCall A s (.receiveQueuingMessage queuingPortId timeOut)) :
    Moves A s (s.receiveQueuingMessage queuingPortId timeOut).1 := by
  unfold receiveQueuingMessage
  split
  · exact .refl
  · next index hindex =>
      dsimp only
      refine refused_moves fun hinvalid => ?_
      refine refused_moves fun hdir => ?_
      refine withCurrent_moves fun node hnode => ?_
      split
      · exact .single (.crash s)
      · next c hc =>
          split_ifs with hsome hzero hcannot
          · exact takeFromChannel_moves s c
          iterate 2 exact .refl
          exact waitOnPort_moves hrun hnode hcannot hzero hinvalid (by constructor) (findIndex_eq_some hindex).1
            (hA index c hindex hc (not_not.mp hdir) (Nat.eq_zero_of_not_pos hsome))

theorem clearQueuingPort_moves (queuingPortId : Int) :
    Moves A s (s.clearQueuingPort queuingPortId).1 := by
  unfold clearQueuingPort
  split
  · exact .refl
  · next index hindex =>
      dsimp only
      split_ifs
      · exact .refl
      · split
        · exact .single (.crash s)
        · exact setQueuingChannel_moves rfl

end Pcb

end UcxArinc
