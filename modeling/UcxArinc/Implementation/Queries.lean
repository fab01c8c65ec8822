import UcxArinc.Implementation.System

set_option autoImplicit false

/-! # Services that only read

The `GET_…` services of `arinc/*.c`, and what `REPORT_APPLICATION_MESSAGE` answers. They leave the partition
as it is; what they hand back is the output they write with `NO_ERROR`, or another return code. -/

namespace UcxArinc

/-! ## What they hand back -/

/-- `PROCESS_STATUS_TYPE`. -/
structure ProcessStatus where
  deadlineTime : Int
  currentPriority : Int
  processState : ProcessState
  attributes : ProcessAttribute

/-- `BLACKBOARD_STATUS_TYPE`. -/
structure BlackboardStatus where
  emptyIndicator : EmptyIndicator
  maxMessageSize : Int
  waitingProcesses : Int

/-- `BUFFER_STATUS_TYPE`. -/
structure BufferStatus where
  nbMessage : Int
  maxNbMessage : Int
  maxMessageSize : Int
  waitingProcesses : Int

/-- `SEMAPHORE_STATUS_TYPE`. -/
structure SemaphoreStatus where
  currentValue : Int
  maximumValue : Int
  waitingProcesses : Int

/-- `EVENT_STATUS_TYPE`. -/
structure EventStatus where
  eventState : EventState
  waitingProcesses : Int

/-- `MUTEX_STATUS_TYPE`. -/
structure MutexStatus where
  mutexOwner : Int
  mutexState : MutexState
  mutexPriority : Int
  lockCount : Int
  waitingProcesses : Int

/-- `SAMPLING_PORT_STATUS_TYPE`. -/
structure SamplingPortStatus where
  refreshPeriod : Int
  maxMessageSize : Int
  portDirection : PortDirection
  lastMsgValidity : Validity

/-- `QUEUING_PORT_STATUS_TYPE`. -/
structure QueuingPortStatus where
  nbMessage : Int
  maxNbMessage : Int
  maxMessageSize : Int
  portDirection : PortDirection
  waitingProcesses : Int

namespace Pcb

/-! ## The services

Most look something up and hand back what they find. -/

/-- The output for what a search finds, or the return code for nothing. -/
def reply {α β : Type} (found : Option α) (missing : ReturnCode) (output : α → β) :
    Except ReturnCode β :=
  match found with
  | none => .error missing
  | some x => .ok (output x)

/-- `GET_PARTITION_STATUS`. -/
def getPartitionStatus (s : Pcb) : Except ReturnCode PartitionStatus := .ok s.status

/-- `GET_MY_PARTITION_ID`. -/
def getMyPartitionId (s : Pcb) : Except ReturnCode Int :=
  if s.status.identifier ≠ 0 then .ok s.status.identifier else .error .notAvailable

/-- `GET_TIME`, in nanoseconds. -/
def getTime (s : Pcb) : Except ReturnCode Int := .ok (Int.bmod (s.krnl.uptime * 1000000) (2 ^ 64))

/-- `find_process_node_by_name`. -/
def findProcessNodeByName (s : Pcb) (name : Name) : Option Node :=
  s.processes.find? fun n => decide ((s.proc n.data).attributes.name = name)

/-- `GET_PROCESS_ID`. -/
def getProcessId (s : Pcb) (processName : Name) : Except ReturnCode Int :=
  reply (s.findProcessNodeByName processName) .invalidConfig fun n => (s.proc n.data).processId

/-- `GET_PROCESS_STATUS`. -/
def getProcessStatus (s : Pcb) (processId : Int) : Except ReturnCode ProcessStatus :=
  reply (s.isProcessIdExisted processId) .invalidConfig fun n =>
    { deadlineTime := (s.proc n.data).deadlineTime
      currentPriority := (s.proc n.data).currentPriority
      processState := (s.proc n.data).processState
      attributes := (s.proc n.data).attributes }

/-- What a service that asks for the calling process hands back of it; `none` where
    `process_current` is `NULL`, which it follows. -/
def ofCurrent {α : Type} (s : Pcb) (f : Nat → Except ReturnCode α) : Option (Except ReturnCode α) :=
  s.processCurrent.map fun node => f node.data

/-- The calling process has no identifier or is the error handler. -/
def isAnonymous (s : Pcb) (p : Nat) : Bool :=
  decide ((s.proc p).processId = nullProcessId) || decide (s.errorHandlerProcess = some p)

/-- `GET_MY_ID`. -/
def getMyId (s : Pcb) : Option (Except ReturnCode Int) :=
  s.ofCurrent fun p => if s.isAnonymous p then .error .invalidMode else .ok (s.proc p).processId

/-- `GET_MY_INDEX`. -/
def getMyIndex (s : Pcb) : Option (Except ReturnCode Nat) :=
  s.ofCurrent fun p => if s.isAnonymous p then .error .invalidMode else .ok (s.proc p).processIndex

/-- `GET_MY_PROCESSOR_CORE_ID`. -/
def getMyProcessorCoreId (s : Pcb) : Option (Except ReturnCode Int) :=
  s.ofCurrent fun p => .ok (s.proc p).processorCoreAffinity

/-- `GET_BLACKBOARD_ID`. -/
def getBlackboardId (s : Pcb) (blackboardName : Name) : Except ReturnCode Int :=
  reply (s.findBlackboardByName blackboardName) .invalidConfig fun i =>
    (s.res.blackboards i).blackboardId

/-- `GET_BLACKBOARD_STATUS`. -/
def getBlackboardStatus (s : Pcb) (blackboardId : Int) : Except ReturnCode BlackboardStatus :=
  reply (s.findBlackboardById blackboardId) .invalidConfig fun i =>
    { emptyIndicator := (s.res.blackboards i).emptyIndicator
      maxMessageSize := (s.res.blackboards i).maxMessageSize
      waitingProcesses := s.waitingCount (.blackboard, i) }

/-- `GET_BUFFER_ID`. -/
def getBufferId (s : Pcb) (bufferName : Name) : Except ReturnCode Int :=
  reply (s.findBufferByName bufferName) .invalidConfig fun i => (s.res.buffers i).bufferId

/-- `GET_BUFFER_STATUS`. -/
def getBufferStatus (s : Pcb) (bufferId : Int) : Except ReturnCode BufferStatus :=
  reply (s.findBufferById bufferId) .invalidParam fun i =>
    { nbMessage := (s.res.buffers i).nbMessage
      maxNbMessage := (s.res.buffers i).maxNbMessage
      maxMessageSize := (s.res.buffers i).maxMessageSize
      waitingProcesses := s.waitingCount (.buffer, i) }

/-- `GET_SEMAPHORE_ID`. -/
def getSemaphoreId (s : Pcb) (semaphoreName : Name) : Except ReturnCode Int :=
  reply (s.findSemaphoreByName semaphoreName) .invalidConfig fun i =>
    (s.res.semaphores i).semaphoreId

/-- `GET_SEMAPHORE_STATUS`. -/
def getSemaphoreStatus (s : Pcb) (semaphoreId : Int) : Except ReturnCode SemaphoreStatus :=
  reply (s.findSemaphoreById semaphoreId) .invalidParam fun i =>
    { currentValue := (s.res.semaphores i).currentValue
      maximumValue := (s.res.semaphores i).maximumValue
      waitingProcesses := s.waitingCount (.semaphore, i) }

/-- `GET_EVENT_ID`. -/
def getEventId (s : Pcb) (eventName : Name) : Except ReturnCode Int :=
  reply (s.findEventByName eventName) .invalidConfig fun i => (s.res.events i).eventId

/-- `GET_EVENT_STATUS`. -/
def getEventStatus (s : Pcb) (eventId : Int) : Except ReturnCode EventStatus :=
  reply (s.findEventById eventId) .invalidParam fun i =>
    { eventState := (s.res.events i).eventState
      waitingProcesses := s.waitingCount (.event, i) }

/-- `GET_MUTEX_ID`. -/
def getMutexId (s : Pcb) (mutexName : Name) : Except ReturnCode Int :=
  reply (s.findMutexByName mutexName) .invalidConfig fun i => (s.res.mutexes i).mutexId

/-- `GET_MUTEX_STATUS`: an available mutex has no owner, whatever its record says. -/
def getMutexStatus (s : Pcb) (mutexId : Int) : Except ReturnCode MutexStatus :=
  reply (s.findMutexById mutexId) .invalidParam fun i =>
    { mutexOwner :=
        if (s.res.mutexes i).mutexState = .available then nullProcessId
        else (s.res.mutexes i).mutexOwner
      mutexState := (s.res.mutexes i).mutexState
      mutexPriority := (s.res.mutexes i).mutexPriority
      lockCount := (s.res.mutexes i).lockCount
      waitingProcesses := s.waitingCount (.mutex, i) }

/-- `GET_PROCESS_MUTEX_STATE`. -/
def getProcessMutexState (s : Pcb) (processId : Int) : Except ReturnCode Int :=
  reply (s.isProcessIdExisted processId) .invalidParam fun n =>
    let ownedMutexId := (s.proc n.data).ownedMutexId
    if ownedMutexId = preemptionLockMutex then preemptionLockMutex
    else if nullMutexId ≤ ownedMutexId then ownedMutexId
    else noMutexOwned

/-- `GET_SAMPLING_PORT_ID`. -/
def getSamplingPortId (s : Pcb) (samplingPortName : Name) : Except ReturnCode Int :=
  reply (s.findSamplingPortByName samplingPortName) .invalidConfig fun i =>
    (s.res.samplingPorts i).samplingPortId

/-- `GET_SAMPLING_PORT_STATUS`. -/
def getSamplingPortStatus (s : Pcb) (samplingPortId : Int) : Except ReturnCode SamplingPortStatus :=
  reply (s.findSamplingPortById samplingPortId) .invalidParam fun i =>
    { refreshPeriod := (s.res.samplingPorts i).refreshPeriod
      maxMessageSize := (s.res.samplingPorts i).maxMessageSize
      portDirection := (s.res.samplingPorts i).portDirection
      lastMsgValidity := (s.res.samplingPorts i).lastMsgValidity }

/-- `GET_QUEUING_PORT_ID`. -/
def getQueuingPortId (s : Pcb) (queuingPortName : Name) : Except ReturnCode Int :=
  reply (s.findQueuingPortByName queuingPortName) .invalidConfig fun i =>
    (s.res.queuingPorts i).queuingPortId

/-- `GET_QUEUING_PORT_STATUS`; no code writes the `NB_MESSAGE` of the static array. -/
def getQueuingPortStatus (s : Pcb) (queuingPortId : Int) : Except ReturnCode QueuingPortStatus :=
  reply (s.findQueuingPortById queuingPortId) .invalidParam fun i =>
    { nbMessage := 0
      maxNbMessage := (s.res.queuingPorts i).maxNbMessage
      maxMessageSize := (s.res.queuingPorts i).maxMessageSize
      portDirection := (s.res.queuingPorts i).portDirection
      waitingProcesses := s.waitingCount (.queuingPort, i) }

/-- `REPORT_APPLICATION_MESSAGE`. -/
def reportApplicationMessage (length : Int) : Except ReturnCode Unit :=
  if length ≤ 0 then .error .invalidParam else .ok ()

end Pcb

/-! ## Calls -/

/-- A call of a service that only reads, with its input parameters. -/
inductive Query
  | getPartitionStatus
  | getMyPartitionId
  | getTime
  | getProcessId (processName : Name)
  | getProcessStatus (processId : Int)
  | getMyId
  | getMyIndex
  | getMyProcessorCoreId
  | getBlackboardId (blackboardName : Name)
  | getBlackboardStatus (blackboardId : Int)
  | getBufferId (bufferName : Name)
  | getBufferStatus (bufferId : Int)
  | getSemaphoreId (semaphoreName : Name)
  | getSemaphoreStatus (semaphoreId : Int)
  | getEventId (eventName : Name)
  | getEventStatus (eventId : Int)
  | getMutexId (mutexName : Name)
  | getMutexStatus (mutexId : Int)
  | getProcessMutexState (processId : Int)
  | getSamplingPortId (samplingPortName : Name)
  | getSamplingPortStatus (samplingPortId : Int)
  | getQueuingPortId (queuingPortName : Name)
  | getQueuingPortStatus (queuingPortId : Int)
  | reportApplicationMessage (length : Int)

/-- The return code of an output or an error. -/
def replyCode {α : Type} : Except ReturnCode α → ReturnCode
  | .error rc => rc
  | .ok _ => .noError

namespace Pcb

/-- The return code of a query; `none` where it follows `NULL`. -/
def ask (s : Pcb) : Query → Option ReturnCode
  | .getPartitionStatus => some (replyCode s.getPartitionStatus)
  | .getMyPartitionId => some (replyCode s.getMyPartitionId)
  | .getTime => some (replyCode s.getTime)
  | .getProcessId processName => some (replyCode (s.getProcessId processName))
  | .getProcessStatus processId => some (replyCode (s.getProcessStatus processId))
  | .getMyId => s.getMyId.map replyCode
  | .getMyIndex => s.getMyIndex.map replyCode
  | .getMyProcessorCoreId => s.getMyProcessorCoreId.map replyCode
  | .getBlackboardId blackboardName => some (replyCode (s.getBlackboardId blackboardName))
  | .getBlackboardStatus blackboardId => some (replyCode (s.getBlackboardStatus blackboardId))
  | .getBufferId bufferName => some (replyCode (s.getBufferId bufferName))
  | .getBufferStatus bufferId => some (replyCode (s.getBufferStatus bufferId))
  | .getSemaphoreId semaphoreName => some (replyCode (s.getSemaphoreId semaphoreName))
  | .getSemaphoreStatus semaphoreId => some (replyCode (s.getSemaphoreStatus semaphoreId))
  | .getEventId eventName => some (replyCode (s.getEventId eventName))
  | .getEventStatus eventId => some (replyCode (s.getEventStatus eventId))
  | .getMutexId mutexName => some (replyCode (s.getMutexId mutexName))
  | .getMutexStatus mutexId => some (replyCode (s.getMutexStatus mutexId))
  | .getProcessMutexState processId => some (replyCode (s.getProcessMutexState processId))
  | .getSamplingPortId samplingPortName => some (replyCode (s.getSamplingPortId samplingPortName))
  | .getSamplingPortStatus samplingPortId =>
    some (replyCode (s.getSamplingPortStatus samplingPortId))
  | .getQueuingPortId queuingPortName => some (replyCode (s.getQueuingPortId queuingPortName))
  | .getQueuingPortStatus queuingPortId => some (replyCode (s.getQueuingPortStatus queuingPortId))
  | .reportApplicationMessage length => some (replyCode (reportApplicationMessage length))

end Pcb

end UcxArinc
