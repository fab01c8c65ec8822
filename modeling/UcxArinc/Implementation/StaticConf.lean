import UcxArinc.Implementation.ModuleScheduler
import UcxArinc.Implementation.System

set_option autoImplicit false

/-! # Configuration and boot

`partition_init` of `kernel/partition.c` with the first statements of `partition_OS`, and the tables
of `include/arinc/static_conf.h`. -/

namespace UcxArinc

/-! ## Static memory

The arrays of resources are static: they hold zeros until a service writes them. -/

def zeroSamplingPort : SamplingPort where
  samplingPortName := []
  samplingPortId := 0
  partitionId := 0
  refreshPeriod := 0
  maxMessageSize := 0
  portDirection := .source
  lastMsgValidity := .invalid
  channel := none

def zeroQueuingPort : QueuingPort where
  queuingPortName := []
  queuingPortId := 0
  partitionId := 0
  maxNbMessage := 0
  maxMessageSize := 0
  portDirection := .source
  queuingDiscipline := .fifo
  channel := none

def zeroBlackboard : Blackboard where
  blackboardName := []
  blackboardId := 0
  emptyIndicator := .empty
  maxMessageSize := 0

def zeroBuffer : Buffer where
  bufferName := []
  bufferId := 0
  nbMessage := 0
  maxNbMessage := 0
  maxMessageSize := 0
  queuingDiscipline := .fifo
  readIndex := 0
  writeIndex := 0

def zeroSemaphore : Semaphore where
  semaphoreName := []
  semaphoreId := 0
  queuingDiscipline := .fifo
  currentValue := 0
  maximumValue := 0

def zeroEvent : Event where
  eventName := []
  eventId := 0
  eventState := .down

def zeroMutex : Mutex where
  mutexName := []
  mutexId := 0
  queuingDiscipline := .fifo
  mutexOwner := 0
  mutexState := .available
  mutexPriority := 0
  lockCount := 0
  savedOwnerPriority := 0

def zeroErrorStatus : ErrorStatus where
  failedProcessId := 0
  errorCode := .deadlineMissed
  length := 0
  message := []

/-- A heap cell that holds zeros, for the runs below; `malloc` promises nothing of the kind. -/
def zeroProcess : Process where
  rtPrio := 0
  stack := 0
  stackSz := 0
  context := .entry
  deadlineTime := 0
  currentPriority := 0
  processState := .dormant
  attributes := ⟨0, 0, 0, 0, 0, []⟩
  processId := 0
  processIndex := 0
  processorCoreAffinity := 0
  releasePointTime := 0
  isSuspended := false
  timeCounter := 0
  savedInitDelay := 0
  waiting := fun _ => none
  waitingMessage := fun _ => 0
  waitingMessageSize := 0
  ownedMutexId := 0
  pendingError := zeroErrorStatus

/-! ## Boot -/

/-- `partition_init`, for a configuration without ports or resources yet. `memory` and `lastTick` are
    what the heap held; no context is saved there. -/
def partitionInit (period identifier : Int) (conf : PartitionConf) (maxErrors : Nat) (krnl : Krnl)
    (memory : Nat → Process) (lastTick : Nat) : Pcb where
  status :=
    { identifier := identifier
      period := period
      lockLevel := 0
      operatingMode := .coldStart }
  conf := conf
  res :=
    { samplingPorts := fun _ => zeroSamplingPort
      samplingPortCount := 0
      queuingPorts := fun _ => zeroQueuingPort
      queuingPortCount := 0
      blackboards := fun _ => zeroBlackboard
      blackboardCount := 0
      blackboardsData := fun _ => 0
      blackboardsSizeData := fun _ => 0
      buffers := fun _ => zeroBuffer
      bufferCount := 0
      buffersData := fun _ => 0
      buffersSizeData := fun _ => 0
      semaphores := fun _ => zeroSemaphore
      semaphoreCount := 0
      events := fun _ => zeroEvent
      eventCount := 0
      mutexes := fun _ => zeroMutex
      mutexCount := 0 }
  nbrProcesses := 0
  idNext := 0
  nextStackAddr := conf.addr (conf.dataBase + partitionOsAndMainProcessStackSize)
  proc := fun p => { memory p with context := .entry }
  nextProc := 0
  processes := []
  nextNode := 0
  processCurrent := none
  errorHandlerProcess := none
  waitingProcesses := fun _ => []
  waitingCount := fun _ => 0
  errorListCb :=
    { readIndex := 0
      writeIndex := 0
      nbErrors := 0
      maxErrors := maxErrors
      processErrorList := fun _ => zeroErrorStatus }
  lastTick := lastTick
  krnl := krnl
  ctl := .partitionOs
  log := []

/-- The first statements of `partition_OS`: the mutex of the preemption lock. -/
def Pcb.startPartitionOs (s : Pcb) : Pcb :=
  (s.createMutex "PREEMPTION_LOCK".toList maxPriorityValue 0).1

/-! ## The default configuration -/

/-- `channel_temperature`. -/
def channelTemperature : SamplingChannel where
  buffer := fun _ => 0
  maxMessageSize := 64
  currentMessageSize := 0
  lastUpdateTime := 0

/-- `channel_cmds`. -/
def channelCmds : QueuingChannel where
  bufferData := fun _ => 0
  bufferSizes := fun _ => 0
  maxMessageSize := 64
  maxNbMessages := 10
  currentNbMessages := 0
  readIndex := 0
  writeIndex := 0

/-- `system_port_table`: each channel is number 0 of its kind. -/
def systemPortTable : List PortMapping :=
  [⟨1, "P1_OUT_TEMP".toList, .source, 64, 0, some 0, none⟩,
   ⟨2, "P2_IN_TEMP".toList, .destination, 64, 0, some 0, none⟩,
   ⟨1, "P1_IN_CMDS".toList, .destination, 32, 10, none, some 0⟩,
   ⟨2, "P2_OUT_CMDS".toList, .source, 32, 10, none, some 0⟩]

/-- `DEFAULT_PARTITION_CONFIG`, with a data region of 64 KiB from address 0 and tables that stop the
    failed process. -/
def defaultPartitionConf : PartitionConf where
  dataBase := 0
  dataSize := 65536
  maxSamplingPorts := 16
  maxSamplingPortDataSize := 512
  maxQueuingPorts := 16
  maxQueuingPortDataSize := 512
  maxBlackboards := 8
  maxBlackboardDataSize := 512
  maxBuffers := 8
  maxBufferDataSize := 64 * 3
  maxSemaphores := 8
  maxEvents := 8
  maxMutexes := 8
  partitionHmTable := fun _ => .processStop
  hmTableModule := fun _ => .processStop
  addressSpace := 2 ^ 32

/-- The kernel memory at time 0. -/
def defaultKrnl : Krnl where
  fTimer := 100
  uptime := 0
  ticks := 0
  moduleScheduler := Kcb.moduleSchedulerInit (msToTicks 100 100) (Kcb.defaultWindows 100)
  noReleasePoint := 0
  samplingChannels := fun _ => channelTemperature
  queuingChannels := fun _ => channelCmds
  systemPortTable := systemPortTable

/-- A partition of the default configuration when `partition_OS` enters its loop. -/
def defaultPartition (identifier : Int) : Pcb :=
  (partitionInit 50 identifier defaultPartitionConf 10 defaultKrnl (fun _ => zeroProcess)
    0).startPartitionOs

/-- The attributes of an aperiodic process without a time capacity. -/
def aperiodicProcess (name : Name) (basePriority : Int) : ProcessAttribute where
  period := infiniteTimeValue
  timeCapacity := infiniteTimeValue
  entryPoint := 0
  stackSize := 1024
  basePriority := basePriority
  name := name

end UcxArinc
