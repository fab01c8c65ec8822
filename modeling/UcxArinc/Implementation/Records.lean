import UcxArinc.Implementation.ApexTypes

set_option autoImplicit false

/-! # Records of the kernel and of the APEX layer

One structure per C `struct`. A pointer to a process is the number of its heap cell, a pointer to
an element of one of the partition's static arrays is the element's index, and `NULL` is `none`.
The `list_s` objects the resources point to live in one map from `WaitList` (which list object) to
the processes its nodes carry; the `WAITING_PROCESSES` counters, which the code keeps beside each
list, stay separate from it. -/

namespace UcxArinc

/-! ## What a service hands back -/

/-- `ERROR_STATUS_TYPE` (its `FAILED_ADDRESS` is never written). -/
structure ErrorStatus where
  failedProcessId : Int
  errorCode : ErrorCode
  length : Int
  message : List UInt8
  deriving DecidableEq, Repr

/-- The out parameters of a service: the return code, the bytes written at `MESSAGE_ADDR` with
    their `LENGTH`, the identifier or level written, the error status written, the validity. -/
structure Result where
  returnCode : ReturnCode
  message : List UInt8 := []
  length : Int := 0
  value : Int := 0
  error : Option ErrorStatus := none
  validity : Validity := .invalid
  deriving DecidableEq, Repr

/-! ## Waiting queues -/

/-- The six kinds of resources a process holds a `waiting_*` back-pointer to. -/
inductive WaitKind
  | queuingPort
  | blackboard
  | buffer
  | semaphore
  | event
  | mutex
  deriving DecidableEq, Repr

/-- The `list_s` objects processes wait in. -/
inductive WaitList
  | queuingPort (index : Nat)
  | blackboard (index : Nat)
  | bufferReaders (index : Nat)
  | bufferWriters (index : Nat)
  | semaphore (index : Nat)
  | event (index : Nat)
  | mutex (index : Nat)
  | errorProcesses
  deriving DecidableEq, Repr

/-- The kind of resource a list belongs to, if processes point back to it. -/
def WaitList.kind : WaitList → Option WaitKind
  | .queuingPort _ => some .queuingPort
  | .blackboard _ => some .blackboard
  | .bufferReaders _ => some .buffer
  | .bufferWriters _ => some .buffer
  | .semaphore _ => some .semaphore
  | .event _ => some .event
  | .mutex _ => some .mutex
  | .errorProcesses => none

/-- The index of the resource a list belongs to. -/
def WaitList.index : WaitList → Nat
  | .queuingPort i | .blackboard i | .bufferReaders i | .bufferWriters i => i
  | .semaphore i | .event i | .mutex i => i
  | .errorProcesses => 0

/-! ## Processes -/

/-- Where a process resumes: the code that follows its last `yield_to_partition`, with the locals
    that code still reads, or its entry point after `_context_init`. -/
inductive Context
  | entry
  | setPriority
  | suspendSelf
  | resume
  | stop
  | start
  | delayedStart
  | lockPreemption
  | unlockPreemption
  | timedWait
  | periodicWait
  | displayBlackboard
  | readBlackboard (index : Nat) (timed : Bool)
  | sendBufferDone
  | sendBuffer (timed : Bool)
  | receiveBufferDone (index : Nat) (message : List UInt8) (length : Int)
  | receiveBuffer (index : Nat) (timed : Bool)
  | waitSemaphore (timed : Bool)
  | signalSemaphore
  | setEvent
  | waitEvent (timed : Bool)
  | aperiodicWaitEvent
  | acquireMutex (timed : Bool)
  | releaseMutex
  | resetMutex
  | sendQueuingMessage (port : Nat) (messageAddr : Area) (length : Int) (timeOut : Int)
  | receiveQueuingMessage (port : Nat) (timeOut : Int)
  | raiseApplicationErrorFull (error : ErrorStatus)
  | raiseApplicationError

/-- `PROCESS_ATTRIBUTE_TYPE`. -/
structure ProcessAttribute where
  period : Int
  timeCapacity : Int
  entryPoint : Nat
  stackSize : Nat
  basePriority : Int
  name : Name

/-- `process_s` with its `tcb_s` and its `PROCESS_STATUS_TYPE`. -/
structure Process where
  rtPrio : Nat
  stack : Nat
  stackSz : Nat
  context : Context
  deadlineTime : Int
  currentPriority : Int
  processState : ProcessState
  attributes : ProcessAttribute
  processId : Int
  processIndex : Nat
  processorCoreAffinity : Int
  releasePointTime : Int
  isSuspended : Bool
  timeCounter : Int
  savedInitDelay : Int
  /-- `waiting_queuing_port` … `waiting_mutex`. -/
  waiting : WaitKind → Option Nat
  /-- What memory holds at `waiting_message_addr`; the area belongs to the blocked call. -/
  waitingMessage : Area
  waitingMessageSize : Int
  ownedMutexId : Int
  pendingError : ErrorStatus

/-! ## Intra-partition resources -/

/-- `semaphore_s`. -/
structure Semaphore where
  semaphoreName : Name
  semaphoreId : Int
  queuingDiscipline : QueuingDiscipline
  currentValue : Int
  maximumValue : Int

/-- `event_s`. -/
structure Event where
  eventName : Name
  eventId : Int
  eventState : EventState

/-- `blackboard_s`. -/
structure Blackboard where
  blackboardName : Name
  blackboardId : Int
  emptyIndicator : EmptyIndicator
  maxMessageSize : Int

/-- `buffer_s`. -/
structure Buffer where
  bufferName : Name
  bufferId : Int
  nbMessage : Int
  maxNbMessage : Int
  maxMessageSize : Int
  queuingDiscipline : QueuingDiscipline
  readIndex : Nat
  writeIndex : Nat

/-- `mutex_s`. -/
structure Mutex where
  mutexName : Name
  mutexId : Int
  queuingDiscipline : QueuingDiscipline
  mutexOwner : Int
  mutexState : MutexState
  mutexPriority : Int
  lockCount : Int
  savedOwnerPriority : Int

/-- `error_list_s` with the array it points to. -/
structure ErrorList where
  readIndex : Nat
  writeIndex : Nat
  nbErrors : Int
  maxErrors : Nat
  processErrorList : Nat → ErrorStatus

/-! ## Ports, channels and the routing table -/

/-- `sampling_port_s`. -/
structure SamplingPort where
  samplingPortName : Name
  samplingPortId : Int
  partitionId : Int
  refreshPeriod : Int
  maxMessageSize : Int
  portDirection : PortDirection
  lastMsgValidity : Validity
  channel : Option Nat

/-- `queuing_port_s`. -/
structure QueuingPort where
  queuingPortName : Name
  queuingPortId : Int
  partitionId : Int
  maxNbMessage : Int
  maxMessageSize : Int
  portDirection : PortDirection
  queuingDiscipline : QueuingDiscipline
  channel : Option Nat

/-- `krnl_sampling_channel`. -/
structure SamplingChannel where
  buffer : Area
  maxMessageSize : Int
  currentMessageSize : Int
  lastUpdateTime : Int

/-- `krnl_queuing_channel_s`; the counters are `uint32_t`. -/
structure QueuingChannel where
  bufferData : Area
  bufferSizes : Nat → Nat
  maxMessageSize : Nat
  maxNbMessages : Nat
  currentNbMessages : Nat
  readIndex : Nat
  writeIndex : Nat

/-- `port_mapping_s`, one row of `system_port_table`. -/
structure PortMapping where
  partitionId : Int
  portName : Name
  portDirection : PortDirection
  messageSizeBytes : Int
  maxNbMessage : Int
  samplingChannel : Option Nat
  queuingChannel : Option Nat

/-! ## Module scheduler and kernel -/

/-- `window_partition_type`. -/
structure WindowPartition where
  id : Int
  startTick : Nat
  durationTick : Nat
  isPeriodicProcessesStart : Bool
  deriving DecidableEq, Repr

/-- `mscb_s`; `nbr_windows` is the length of the window table. -/
structure Mscb where
  majorFrameTick : Nat
  windowsPartition : List WindowPartition
  windowsIdx : Nat
  idleCurrentPartition : Bool
  majorFrameCount : Nat
  deriving DecidableEq, Repr

/-- The kernel memory the services of a partition read and write. -/
structure Krnl where
  /-- `F_TIMER`, ticks per second. -/
  fTimer : Nat
  /-- `ucx_uptime()`, in milliseconds. -/
  uptime : Nat
  ticks : Nat
  moduleScheduler : Mscb
  /-- What `arinc_time_find_first_release_point` returns when it falls off its end. -/
  noReleasePoint : Int
  samplingChannels : Nat → SamplingChannel
  queuingChannels : Nat → QueuingChannel
  systemPortTable : List PortMapping

end UcxArinc
