import UcxArinc.Implementation.PartitionOs
import UcxArinc.Library.Transition

set_option autoImplicit false

/-! # A partition as a transition system

What can happen to a partition between two points where control changes hands: the running code
calls a service, traps or returns, `partition_OS` makes one turn of its loop, or the kernel and the
other partitions run. A service runs to its next yield in one step; the services that only read
(`GET_…`) change nothing and are left out. -/

namespace UcxArinc

/-- A service call with its input parameters. -/
inductive Service
  | createProcess (attributes : ProcessAttribute)
  | initializeProcessCoreAffinity (processId processorCoreId : Int)
  | setPriority (processId priority : Int)
  | suspendSelf (timeOut : Int)
  | suspend (processId : Int)
  | resume (processId : Int)
  | stopSelf
  | stop (processId : Int)
  | start (processId : Int)
  | delayedStart (processId delayTime : Int)
  | lockPreemption
  | unlockPreemption
  | timedWait (delayTime : Int)
  | periodicWait
  | replenish (budgetTime : Int)
  | createBlackboard (name : Name) (maxMessageSize : Int)
  | displayBlackboard (blackboardId : Int) (messageAddr : Area) (length : Int)
  | readBlackboard (blackboardId timeOut : Int)
  | clearBlackboard (blackboardId : Int)
  | createBuffer (name : Name) (maxMessageSize maxNbMessage queuingDiscipline : Int)
  | sendBuffer (bufferId : Int) (messageAddr : Area) (length timeOut : Int)
  | receiveBuffer (bufferId timeOut : Int) (messageAddr : Area)
  | createSemaphore (name : Name) (currentValue maximumValue queuingDiscipline : Int)
  | waitSemaphore (semaphoreId timeOut : Int)
  | signalSemaphore (semaphoreId : Int)
  | createEvent (name : Name)
  | setEvent (eventId : Int)
  | resetEvent (eventId : Int)
  | waitEvent (eventId timeOut : Int)
  | aperiodicWaitEvent (eventId : Int)
  | createMutex (name : Name) (mutexPriority queuingDiscipline : Int)
  | acquireMutex (mutexId timeOut : Int)
  | releaseMutex (mutexId : Int)
  | resetMutex (mutexId processId : Int)
  | createSamplingPort (name : Name) (maxMessageSize portDirection refreshPeriod : Int)
  | writeSamplingMessage (samplingPortId : Int) (messageAddr : Area) (length : Int)
  | readSamplingMessage (samplingPortId : Int)
  | createQueuingPort (name : Name)
      (maxMessageSize maxNbMessage portDirection queuingDiscipline : Int)
  | sendQueuingMessage (queuingPortId : Int) (messageAddr : Area) (length timeOut : Int)
  | receiveQueuingMessage (queuingPortId timeOut : Int)
  | clearQueuingPort (queuingPortId : Int)
  | createErrorHandler (stackSize : Nat)
  | raiseApplicationError (errorCode : ErrorCode) (messageAddr : Area) (length : Int)
  | getErrorStatus
  | setPartitionMode (operatingMode : Int)

/-- What happens to a partition. -/
inductive Action
  /-- the running code calls a service -/
  | call (service : Service)
  /-- the running process traps, and the trap handler calls `hm_raise_error` -/
  | fault (errorCode : ErrorCode) (messageAddr : Area) (length : Int)
  /-- the partition's entry point returns -/
  | mainReturn
  /-- `partition_OS` makes one turn of its loop -/
  | loop
  /-- time passes, and other partitions use the channels -/
  | kernel (uptime ticks windowsIdx majorFrameCount : Nat)
      (samplingChannels : Nat → SamplingChannel) (queuingChannels : Nat → QueuingChannel)

namespace Pcb

/-- The service a call runs. -/
def exec (s : Pcb) : Service → Outcome
  | .createProcess attributes => s.createProcess attributes
  | .initializeProcessCoreAffinity processId processorCoreId =>
    s.initializeProcessCoreAffinity processId processorCoreId
  | .setPriority processId priority => s.setPriority processId priority
  | .suspendSelf timeOut => s.suspendSelf timeOut
  | .suspend processId => s.suspend processId
  | .resume processId => s.resume processId
  | .stopSelf => s.stopSelf
  | .stop processId => s.stop processId
  | .start processId => s.start processId
  | .delayedStart processId delayTime => s.delayedStart processId delayTime
  | .lockPreemption => s.lockPreemption
  | .unlockPreemption => s.unlockPreemption
  | .timedWait delayTime => s.timedWait delayTime
  | .periodicWait => s.periodicWait
  | .replenish budgetTime => s.replenish budgetTime
  | .createBlackboard name maxMessageSize => s.createBlackboard name maxMessageSize
  | .displayBlackboard blackboardId messageAddr length =>
    s.displayBlackboard blackboardId messageAddr length
  | .readBlackboard blackboardId timeOut => s.readBlackboard blackboardId timeOut
  | .clearBlackboard blackboardId => s.clearBlackboard blackboardId
  | .createBuffer name maxMessageSize maxNbMessage queuingDiscipline =>
    s.createBuffer name maxMessageSize maxNbMessage queuingDiscipline
  | .sendBuffer bufferId messageAddr length timeOut =>
    s.sendBuffer bufferId messageAddr length timeOut
  | .receiveBuffer bufferId timeOut messageAddr => s.receiveBuffer bufferId timeOut messageAddr
  | .createSemaphore name currentValue maximumValue queuingDiscipline =>
    s.createSemaphore name currentValue maximumValue queuingDiscipline
  | .waitSemaphore semaphoreId timeOut => s.waitSemaphore semaphoreId timeOut
  | .signalSemaphore semaphoreId => s.signalSemaphore semaphoreId
  | .createEvent name => s.createEvent name
  | .setEvent eventId => s.setEvent eventId
  | .resetEvent eventId => s.resetEvent eventId
  | .waitEvent eventId timeOut => s.waitEvent eventId timeOut
  | .aperiodicWaitEvent eventId => s.aperiodicWaitEvent eventId
  | .createMutex name mutexPriority queuingDiscipline =>
    s.createMutex name mutexPriority queuingDiscipline
  | .acquireMutex mutexId timeOut => s.acquireMutex mutexId timeOut
  | .releaseMutex mutexId => s.releaseMutex mutexId
  | .resetMutex mutexId processId => s.resetMutex mutexId processId
  | .createSamplingPort name maxMessageSize portDirection refreshPeriod =>
    s.createSamplingPort name maxMessageSize portDirection refreshPeriod
  | .writeSamplingMessage samplingPortId messageAddr length =>
    s.writeSamplingMessage samplingPortId messageAddr length
  | .readSamplingMessage samplingPortId => s.readSamplingMessage samplingPortId
  | .createQueuingPort name maxMessageSize maxNbMessage portDirection queuingDiscipline =>
    s.createQueuingPort name maxMessageSize maxNbMessage portDirection queuingDiscipline
  | .sendQueuingMessage queuingPortId messageAddr length timeOut =>
    s.sendQueuingMessage queuingPortId messageAddr length timeOut
  | .receiveQueuingMessage queuingPortId timeOut => s.receiveQueuingMessage queuingPortId timeOut
  | .clearQueuingPort queuingPortId => s.clearQueuingPort queuingPortId
  | .createErrorHandler stackSize => s.createErrorHandler stackSize
  | .raiseApplicationError errorCode messageAddr length =>
    s.raiseApplicationError errorCode messageAddr length
  | .getErrorStatus => s.getErrorStatus
  | .setPartitionMode operatingMode => s.setPartitionMode operatingMode

/-- The kernel has run: the clocks and the module scheduler have moved, and other partitions have
    changed what the channels hold, but not their sizes. -/
def afterKernel (s : Pcb) (uptime ticks windowsIdx majorFrameCount : Nat)
    (samplingChannels : Nat → SamplingChannel) (queuingChannels : Nat → QueuingChannel) : Pcb :=
  let k := s.krnl
  let ms := { k.moduleScheduler with
    windowsIdx := windowsIdx
    majorFrameCount := majorFrameCount }
  { s with krnl := { k with
    uptime := uptime
    ticks := ticks
    moduleScheduler := ms
    samplingChannels := fun c =>
      { samplingChannels c with maxMessageSize := (k.samplingChannels c).maxMessageSize }
    queuingChannels := fun c =>
      { queuingChannels c with
        maxMessageSize := (k.queuingChannels c).maxMessageSize
        maxNbMessages := (k.queuingChannels c).maxNbMessages } } }

/-- The outcome of an action, if it can happen in `s`. -/
def stepOutcome (s : Pcb) : Action → Option Outcome
  | .call service =>
    if s.ctl = .process ∨ s.ctl = .mainProcess then some (s.exec service) else none
  | .fault errorCode messageAddr length =>
    if s.ctl = .process then some (s.hmRaiseError errorCode messageAddr length) else none
  | .mainReturn => if s.ctl = .mainProcess then some (s.toPartitionOs, none) else none
  | .loop => if s.ctl = .partitionOs then some s.partitionOsLoop else none
  | .kernel uptime ticks windowsIdx majorFrameCount samplingChannels queuingChannels =>
    if s.krnl.uptime ≤ uptime then
      some (s.afterKernel uptime ticks windowsIdx majorFrameCount samplingChannels queuingChannels,
        none)
    else none

/-- One step of a partition. -/
def step (s : Pcb) (e : Action) : Option Pcb := (s.stepOutcome e).map Prod.fst

/-! ## Freed records -/

/-- `SET_PARTITION_MODE` restarts the partition. -/
def Restarts (s : Pcb) (operatingMode : Int) : Prop :=
  OperatingMode.ofInt? operatingMode = some .coldStart
    ∨ OperatingMode.ofInt? operatingMode = some .warmStart ∧ s.status.operatingMode ≠ .coldStart

/-- A restart frees no process that a waiting list holds. The code does not see to it: a list that holds a freed
    record may later wake what the heap has made of it. -/
def FreesNoWaiter (s : Pcb) : Action → Prop
  | .call (.setPartitionMode operatingMode) => s.Restarts operatingMode → ∀ q, s.waitingProcesses q = []
  | _ => True

end Pcb

end UcxArinc
