import UcxArinc.Implementation.HealthMonitor
import UcxArinc.Implementation.Interpartition
import UcxArinc.Implementation.Intrapartition

set_option autoImplicit false

/-! # The partition operating system

`process_schedule` of `kernel/process.c`, and from `arinc/arinc_partition.c` the loop of
`partition_OS` with what it does at a new tick, and `SET_PARTITION_MODE`. -/

namespace UcxArinc

namespace Pcb

/-! ## The process scheduler -/

/-- The body of the loop of `process_schedule`: a `READY` process of higher priority than the one
    selected so far is selected. -/
def scheduleCandidate (s : Pcb) (select : Option Node) (node : Node) : Option Node :=
  let highestPriority := match select with
    | none => -1
    | some best => (s.proc best.data).currentPriority
  if (s.proc node.data).processState = .ready ∧ (s.proc node.data).rtPrio = 0 ∧
      highestPriority < (s.proc node.data).currentPriority then some node
  else select

/-- The running process goes back to `READY`. -/
def requeueCurrent (s : Pcb) : Pcb :=
  match s.processCurrent with
  | none => s
  | some node =>
    if (s.proc node.data).processState = .running then
      s.modProc node.data fun x => { x with processState := .ready }
    else s

/-- `node` becomes the current process, and runs. -/
def dispatch (s : Pcb) (p : Nat) (node : Option Node) : Pcb :=
  (s.setCurrent node).modProc p fun x => { x with processState := .running }

/-- The error handler, if it is `READY`. -/
def readyErrorHandler (s : Pcb) : Option Nat :=
  s.errorHandlerProcess.filter fun p => decide ((s.proc p).processState = .ready)

/-- `process_schedule`. -/
def processSchedule (s : Pcb) : Pcb :=
  let s := s.requeueCurrent
  match s.readyErrorHandler with
  | some errorProcess =>
    s.dispatch errorProcess (s.processes.find? fun n => decide (n.data = errorProcess))
  | none =>
    match s.processes.foldl s.scheduleCandidate none with
    | none => s.setCurrent none
    | some select => s.dispatch select.data (some select)

/-! ## A new tick -/

/-- The body of the loop of `check_available_resources_on_partition_port`, for port `index` with
    channel `c`. Its first test compares `MAX_MESSAGE_SIZE` with the enumerator `SOURCE`, which
    is 0. -/
def checkPort (s : Pcb) (index c : Nat) : Pcb :=
  let port := s.res.queuingPorts index
  let channel := s.krnl.queuingChannels c
  let s :=
    if channel.currentNbMessages < channel.maxNbMessages ∧ port.maxMessageSize = 0 then
      match s.wakeFirst (.queuingPort index) false with
      | none => s
      | some (_, s) => s
    else s
  if 0 < channel.currentNbMessages ∧ port.portDirection = .destination then
    match s.wakeFirst (.queuingPort index) false with
    | none => s
    | some (_, s) => s
  else s

/-- The loop of `check_available_resources_on_partition_port` from port `index` on: it stops at the
    first port without a channel. -/
def checkPortsFrom (index : Nat) : Nat → Pcb → Pcb
  | 0, s => s
  | n + 1, s =>
    match (s.res.queuingPorts index).channel with
    | none => s
    | some c => checkPortsFrom (index + 1) n (s.checkPort index c)

/-- `check_available_resources_on_partition_port`. -/
def checkAvailableResourcesOnPartitionPort (s : Pcb) : Pcb :=
  checkPortsFrom 0 s.conf.maxQueuingPorts s

/-- What `partition_OS` does when the tick has changed. -/
def newTick (s : Pcb) : Pcb :=
  { s with lastTick := s.krnl.ticks }.arincTimeUpdatePartition.checkAvailableResourcesOnPartitionPort

/-! ## Resuming a process -/

/-- The end of a timed wait without further work. -/
def finishWait (s : Pcb) (p : Nat) (timed : Bool) : Outcome :=
  if timed ∧ (s.proc p).timeCounter = 0 then s.ret .timedOut else s.ret .noError

/-- `longjmp` to the saved context of process `p`: the rest of the service it yielded in. -/
def resumeContext (s : Pcb) (p : Nat) : Outcome :=
  match (s.proc p).context with
  | .entry => (s, none)
  | .setPriority | .resume | .start | .delayedStart | .timedWait | .periodicWait
  | .displayBlackboard | .sendBufferDone | .signalSemaphore | .setEvent | .releaseMutex
  | .resetMutex | .raiseApplicationError => s.ret .noError
  | .suspendSelf => s.finishWait p true
  | .stop => if (s.proc p).ownedMutexId ≠ noMutexOwned then s.ret .invalidMode else s.ret .noError
  | .lockPreemption | .unlockPreemption => s.refreshLockLevel .noError
  | .waitSemaphore timed | .waitEvent timed | .acquireMutex timed | .sendBuffer timed =>
    s.finishWait p timed
  | .readBlackboard index timed =>
    if timed ∧ (s.proc p).timeCounter = 0 then s.ret .timedOut
    else (s, some (s.blackboardMessage index))
  | .receiveBufferDone index message length => s.receivedMessage index p message length
  | .receiveBuffer index timed =>
    if timed ∧ (s.proc p).timeCounter = 0 then s.ret .timedOut
    else s.receivedMessage index p
      ((s.proc p).waitingMessage.bytes (s.proc p).waitingMessageSize.toNat)
      (s.proc p).waitingMessageSize
  | .aperiodicWaitEvent => s.finishAperiodicWaitEvent p
  | .sendQueuingMessage index messageAddr length timeOut =>
    if (s.proc p).timeCounter = 0 then s.ret .timedOut
    else
      match (s.res.queuingPorts index).channel with
      | none => s.crash
      | some c =>
        let s := s.setQueuingChannel c ((s.krnl.queuingChannels c).channelEnqueue messageAddr length)
        (if timeOut ≠ infiniteTimeValue then s.modProc p fun x => { x with timeCounter := 0 }
          else s).ret .noError
  | .receiveQueuingMessage index timeOut =>
    if (s.proc p).timeCounter = 0 then s.ret .timedOut
    else
      match (s.res.queuingPorts index).channel with
      | none => s.crash
      | some c =>
        (if timeOut ≠ infiniteTimeValue then s.modProc p fun x => { x with timeCounter := 0 }
          else s).takeFromChannel c
  | .raiseApplicationErrorFull error => s.raiseToErrorHandler p error

/-- One turn of the loop of `partition_OS`. -/
def partitionOsLoop (s : Pcb) : Outcome :=
  if s.status.operatingMode = .coldStart ∨ s.status.operatingMode = .warmStart then
    ({ s with ctl := .mainProcess }, none)
  else
    let s := if s.krnl.ticks ≠ s.lastTick then s.newTick else s
    let s := s.processSchedule
    match s.processCurrent with
    | none => (s, none)
    | some node =>
      if s.status.operatingMode = .normal then
        { s with ctl := .process }.resumeContext node.data
      else (s, none)

/-! ## Operating modes -/

/-- `start_process`, on the process of the node it visits. -/
def startProcess (uptime : Nat) (firstReleasePoint : Int) (x : Process) : Process :=
  if x.processState = .waiting ∧ x.attributes.period = infiniteTimeValue ∧
      x.savedInitDelay = 0 ∧ x.isSuspended = false then
    updateProcessDeadline uptime { x with processState := .ready }
  else
    let x :=
      if x.processState = .waiting then
        if x.attributes.period = infiniteTimeValue then
          if x.savedInitDelay ≠ 0 then { x with releasePointTime := i64 (uptime + x.savedInitDelay) }
          else x
        else { x with releasePointTime := i64 (firstReleasePoint + x.savedInitDelay) }
      else x
    if x.processState ≠ .dormant then updateProcessDeadline x.releasePointTime x else x

/-- Back to the initialisation: the processes are freed. Their records go back to the heap, though a waiting list
    may still hold them; here a record is not used again (see `FreesNoWaiter`). -/
def restart (s : Pcb) : Pcb :=
  { s with
    processCurrent := none
    nbrProcesses := 0
    idNext := 0
    nextStackAddr := s.conf.addr (s.conf.dataBase + partitionOsAndMainProcessStackSize)
    errorHandlerProcess := none
    processes := [] }

/-- What `SET_PARTITION_MODE(NORMAL)` does to the processes. `list_foreach` hands the first release point to
    `start_process` as a `void *`. -/
def startProcesses (s : Pcb) : Pcb :=
  let s := s.forEachProcess
    (startProcess s.krnl.uptime (s.conf.throughPointer s.arincTimeFindFirstReleasePoint))
  let s := { s with status := { s.status with lockLevel := 0 } }
  match s.errorHandlerProcess with
  | none => s
  | some errorProcess => s.modProc errorProcess fun x => { x with context := .entry }

/-- `SET_PARTITION_MODE`. -/
def setPartitionMode (s : Pcb) (operatingMode : Int) : Outcome :=
  match OperatingMode.ofInt? operatingMode with
  | none => s.ret .invalidParam
  | some mode =>
    if mode = .normal ∧ s.status.operatingMode = .normal then s.ret .noAction
    else if mode = .warmStart ∧ s.status.operatingMode = .coldStart then s.ret .invalidMode
    else
      let s := { s with status := { s.status with operatingMode := mode } }
      match mode with
      | .idle =>
        let ms := { s.krnl.moduleScheduler with idleCurrentPartition := true }
        ({ s.setCurrent none with krnl := { s.krnl with moduleScheduler := ms } }.toPartitionOs,
          none)
      | .coldStart | .warmStart => (s.restart.toPartitionOs, none)
      | .normal => (s.startProcesses.toPartitionOs, none)

end Pcb

end UcxArinc
