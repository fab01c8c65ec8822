import UcxArinc.Implementation.Mutex
import UcxArinc.Implementation.Time

set_option autoImplicit false

/-! # Process services

`arinc/arinc_process.c`, with `ucx_process_spawn` of `kernel/process.c`. A service that works on
another process finds its node by identifier. -/

namespace UcxArinc

namespace Pcb

/-- Run `f` on the node of the process a `PROCESS_ID` names. -/
def withProcess (s : Pcb) (processId : Int) (f : Node → Outcome) : Outcome :=
  match s.isProcessIdExisted processId with
  | none => s.ret .invalidParam
  | some node => f node

/-! ## Waiting queues -/

/-- `is_process_waiting_in_waiting_queue`. -/
def isProcessWaitingInWaitingQueue (x : Process) : Bool :=
  (x.waiting .queuingPort).isSome || (x.waiting .blackboard).isSome || (x.waiting .buffer).isSome
    || (x.waiting .mutex).isSome || (x.waiting .semaphore).isSome || (x.waiting .event).isSome

/-- Take `p` out of list `q`, once, and count it out, if it is there. -/
def unlink (s : Pcb) (p : Nat) (q : WaitList) : Pcb :=
  if p ∈ s.waitingProcesses q then
    { s with waitingProcesses :=
        Function.update s.waitingProcesses q ((s.waitingProcesses q).erase p) }.addWaitingCount
      q (-1)
  else s

/-- The lists of the resource a back-pointer of a kind leads to. -/
def listsOf : WaitKind → Nat → List WaitList
  | .queuingPort, i => [.queuingPort i]
  | .blackboard, i => [.blackboard i]
  | .buffer, i => [.bufferReaders i, .bufferWriters i]
  | .semaphore, i => [.semaphore i]
  | .event, i => [.event i]
  | .mutex, i => [.mutex i]

/-- One block of `remove_process_from_waiting_queue`: follow the back-pointer of a kind, leave the
    lists it leads to, clear it. -/
def leaveQueue (p : Nat) (s : Pcb) (k : WaitKind) : Pcb :=
  match (s.proc p).waiting k with
  | none => s
  | some i => ((listsOf k i).foldl (fun s q => s.unlink p q) s).modProc p fun x =>
      { x with waiting := Function.update x.waiting k none }

/-- `remove_process_from_waiting_queue`. -/
def removeProcessFromWaitingQueue (s : Pcb) (p : Nat) : Pcb :=
  [WaitKind.queuingPort, .blackboard, .buffer, .semaphore, .event, .mutex].foldl (leaveQueue p) s

/-! ## Creation -/

/-- `ucx_process_spawn` for a process that is not the error handler, in the cell `malloc` returned:
    the stack fields, and the identifier. The new context is not initialised. -/
def ucxProcessSpawn (s : Pcb) (p : Nat) (stackSize : Nat) : Pcb × Int :=
  let stackSize := stackSize % 2 ^ 16
  let s := s.modProc p fun x => { x with
    rtPrio := 0
    stack := s.nextStackAddr
    stackSz := stackSize }
  ({ s with
      idNext := s.idNext + 1
      nextStackAddr := s.conf.roundUp (s.conf.addr (s.nextStackAddr + stackSize)) }, s.idNext + 1)

/-- `CREATE_PROCESS`. -/
def createProcess (s : Pcb) (attributes : ProcessAttribute) : Outcome :=
  if maxNumberOfProcesses ≤ s.nbrProcesses then s.ret .invalidConfig
  else if s.conf.addr (s.conf.dataBase + s.conf.dataSize) <
      s.conf.addr (s.nextStackAddr + attributes.stackSize) then s.ret .invalidConfig
  else if s.processes.any fun n => decide ((s.proc n.data).attributes.name = attributes.name) then
    s.ret .noAction
  else if s.conf.dataSize < attributes.stackSize then s.ret .invalidParam
  else if attributes.basePriority < minPriorityValue ∨
      maxPriorityValue < attributes.basePriority then s.ret .invalidParam
  else if attributes.period < -1 then s.ret .invalidParam
  else if 0 ≤ attributes.period ∧ Int.tmod attributes.period s.status.period ≠ 0 then
    s.ret .invalidConfig
  else if attributes.timeCapacity < -1 then s.ret .invalidConfig
  else if 0 ≤ attributes.period ∧ 0 ≤ attributes.timeCapacity ∧
      attributes.period < attributes.timeCapacity then s.ret .invalidParam
  else if s.status.operatingMode = .normal then s.ret .invalidMode
  else
    let p := s.nextProc
    let s := { s with nbrProcesses := s.nbrProcesses + 1, nextProc := s.nextProc + 1 }
    let (s, id) := s.ucxProcessSpawn p attributes.stackSize
    -- the waiting_* fields of the record keep what the memory held
    let s := s.modProc p fun x => { x with
      deadlineTime := attributes.timeCapacity
      currentPriority := attributes.basePriority
      processState := .dormant
      attributes := attributes
      processId := id
      processIndex := s.nbrProcesses
      processorCoreAffinity := defaultProcessCoreAffinity
      releasePointTime := 0
      isSuspended := false
      timeCounter := 0
      savedInitDelay := 0
      ownedMutexId := noMutexOwned }
    ((s.listPushback p).1, some { returnCode := .noError, value := id })

/-- `INITIALIZE_PROCESS_CORE_AFFINITY`. -/
def initializeProcessCoreAffinity (s : Pcb) (processId processorCoreId : Int) : Outcome :=
  s.withProcess processId fun node =>
    if processorCoreId ≠ defaultProcessCoreAffinity then s.ret .invalidConfig
    else if s.status.operatingMode = .normal then s.ret .invalidMode
    else (s.modProc node.data fun x =>
      { x with processorCoreAffinity := processorCoreId }).ret .noError

/-! ## Priorities, suspension -/

/-- `SET_PRIORITY`. -/
def setPriority (s : Pcb) (processId priority : Int) : Outcome :=
  s.withProcess processId fun node =>
    let p := node.data
    if priority < minPriorityValue ∨ maxPriorityValue < priority then s.ret .invalidParam
    else if (s.proc p).processState = .dormant then s.ret .invalidMode
    else
      let changed :=
        if (s.proc p).ownedMutexId ≠ noMutexOwned then
          (s.findMutexById (s.proc p).ownedMutexId).map fun index =>
            s.setMutex index { s.res.mutexes index with savedOwnerPriority := priority }
        else some (s.modProc p fun x => { x with currentPriority := priority })
      match changed with
      | none => s.crash
      | some s =>
        if (s.proc p).processState = .ready ∨ (s.proc p).processState = .running then
          let (s, newNode) := (s.listRemove node).listPushback p
          let s := if (s.proc p).processState = .running then s.setCurrent (some newNode) else s
          s.withCurrent fun current => s.yieldToPartition current.data .setPriority
        else s.ret .noError

/-- `SUSPEND_SELF`. -/
def suspendSelf (s : Pcb) (timeOut : Int) : Outcome :=
  s.withCurrent fun node =>
    let current := node.data
    if s.cannotBlock current then s.ret .invalidMode
    else if s.timeOutInvalid timeOut then s.ret .invalidParam
    else if (s.proc current).attributes.period ≠ infiniteTimeValue then s.ret .invalidMode
    else if timeOut = 0 then s.ret .noError
    else
      (s.modProc current fun x => { x with
        processState := .waiting
        isSuspended := true
        timeCounter := if timeOut ≠ infiniteTimeValue then s.fromNow timeOut
          else x.timeCounter }).yieldToPartition current .suspendSelf

/-- `SUSPEND`. -/
def suspend (s : Pcb) (processId : Int) : Outcome :=
  s.withCurrent fun currentNode => s.withProcess processId fun node =>
    let p := node.data
    if (s.proc p).processId = (s.proc currentNode.data).processId then s.ret .invalidParam
    else if (s.proc p).ownedMutexId ≠ noMutexOwned ∨ ((s.proc p).waiting .mutex).isSome then
      s.ret .invalidMode
    else if (s.proc p).processState = .dormant ∨ (s.proc p).processState = .faulted then
      s.ret .invalidMode
    else if (s.proc p).attributes.period ≠ infiniteTimeValue then s.ret .invalidMode
    else if (s.proc p).isSuspended then s.ret .noAction
    else
      (s.modProc p fun x => { x with isSuspended := true, processState := .waiting }).ret .noError

/-- `RESUME`. -/
def resume (s : Pcb) (processId : Int) : Outcome :=
  s.withCurrent fun currentNode => s.withProcess processId fun node =>
    let p := node.data
    if (s.proc p).processId = (s.proc currentNode.data).processId then s.ret .invalidParam
    else if (s.proc p).processState = .dormant then s.ret .invalidMode
    else if (s.proc p).attributes.period ≠ infiniteTimeValue ∧
        (s.proc p).processState ≠ .faulted then s.ret .invalidMode
    else if (s.proc p).isSuspended = false ∧ (s.proc p).processState ≠ .faulted then s.ret .noAction
    else
      let s := if (s.proc p).isSuspended then
          s.modProc p fun x => { x with isSuspended := false, timeCounter := 0 }
        else s
      if (s.proc p).timeCounter = 0 ∨ isProcessWaitingInWaitingQueue (s.proc p) = false then
        (s.modProc p fun x => { x with processState := .ready }).yieldToPartition currentNode.data
          .resume
      else s.ret .noError

/-! ## Stopping and starting -/

/-- The last statements of `STOP_SELF`. -/
def makeDormant (x : Process) : Process :=
  { x with processState := .dormant, timeCounter := 0, isSuspended := false }

/-- `STOP_SELF`. -/
def stopSelf (s : Pcb) : Outcome :=
  s.withCurrent fun node =>
    let current := node.data
    let s := s.modProc current fun x => { x with deadlineTime := infiniteTimeValue }
    let released :=
      if (s.proc current).ownedMutexId ≠ noMutexOwned then
        (s.findMutexById (s.proc current).ownedMutexId).bind fun index =>
          s.resetOwnedMutex index current node
      else some s
    match released with
    | none => s.crash
    | some s => ((s.modProc current makeDormant).toPartitionOs, none)

/-- `STOP`. -/
def stop (s : Pcb) (processId : Int) : Outcome :=
  s.withCurrent fun currentNode => s.withProcess processId fun node =>
    let p := node.data
    if (s.proc p).processId = (s.proc currentNode.data).processId then s.ret .invalidParam
    else if (s.proc p).processState = .dormant then s.ret .noAction
    else
      let s := if isProcessWaitingInWaitingQueue (s.proc p) then s.removeProcessFromWaitingQueue p
        else s
      (s.modProc p fun x => { makeDormant x with deadlineTime := infiniteTimeValue }).yieldToPartition
        currentNode.data .stop

/-- What `START` and `DELAYED_START` do first to the process they start: its base priority and a
    context at its entry point. -/
def initContext (x : Process) : Process :=
  { x with currentPriority := x.attributes.basePriority, context := .entry }

/-- `START`. -/
def start (s : Pcb) (processId : Int) : Outcome :=
  s.withProcess processId fun node =>
    let p := node.data
    if (s.proc p).processState ≠ .dormant then s.ret .noAction
    else if s.timeOutInvalid (s.proc p).attributes.timeCapacity then s.ret .invalidConfig
    else
      let s := s.modProc p initContext
      if s.status.operatingMode ≠ .normal then
        (s.modProc p fun x => { x with processState := .waiting }).ret .noError
      else if (s.proc p).attributes.period = infiniteTimeValue then
        let s := s.modProc p fun x =>
          updateProcessDeadline s.krnl.uptime { x with processState := .ready }
        s.withCurrent fun current => s.yieldToPartition current.data .start
      else
        let firstReleasePoint := s.arincTimeFindFirstReleasePoint
        (s.modProc p fun x => updateProcessDeadline firstReleasePoint { x with
          processState := .waiting
          releasePointTime := firstReleasePoint }).ret .noError

/-- `DELAYED_START`. -/
def delayedStart (s : Pcb) (processId delayTime : Int) : Outcome :=
  s.withProcess processId fun node =>
    let p := node.data
    let timeCapacity := (s.proc p).attributes.timeCapacity
    if (s.proc p).processState ≠ .dormant then s.ret .noAction
    else if s.timeOutInvalid delayTime then s.ret .invalidParam
    else if delayTime = infiniteTimeValue then s.ret .invalidParam
    else if (s.proc p).attributes.period ≠ infiniteTimeValue ∧
        (s.proc p).attributes.period ≤ delayTime then s.ret .invalidParam
    else if timeCapacity < infiniteTimeValue ∨ (0 ≤ timeCapacity ∧
        timeOverflow (s.krnl.uptime + timeCapacity.toNat + delayTime.toNat)) then
      s.ret .invalidConfig
    else
      let s := s.modProc p initContext
      if s.status.operatingMode ≠ .normal then
        (s.modProc p fun x => { x with
          processState := .waiting
          savedInitDelay := delayTime }).ret .noError
      else if (s.proc p).attributes.period = infiniteTimeValue then
        let s := s.modProc p fun x =>
          if delayTime = 0 then updateProcessDeadline s.krnl.uptime { x with processState := .ready }
          else updateProcessDeadline (s.fromNow delayTime) { x with
            processState := .waiting
            timeCounter := s.fromNow delayTime }
        s.withCurrent fun current => s.yieldToPartition current.data .delayedStart
      else
        let firstReleasePoint := i64 (s.arincTimeFindFirstReleasePoint + delayTime)
        (s.modProc p fun x => updateProcessDeadline firstReleasePoint { x with
          processState := .waiting
          releasePointTime := firstReleasePoint }).ret .noError

/-! ## Preemption lock -/

/-- What `LOCK_PREEMPTION` and `UNLOCK_PREEMPTION` do once the mutex call has returned `rc`:
    `LOCK_LEVEL` follows the lock count. -/
def refreshLockLevel (s : Pcb) (rc : ReturnCode) : Outcome :=
  let s := match s.findMutexById preemptionLockMutex with
    | none => s
    | some index =>
      { s with status := { s.status with lockLevel := (s.res.mutexes index).lockCount } }
  (s, some { returnCode := rc, value := s.status.lockLevel })

/-- Continue with `refreshLockLevel` if the mutex call returned. -/
def thenRefreshLockLevel (o : Outcome) : Outcome :=
  match o.2 with
  | none => o
  | some r => o.1.refreshLockLevel r.returnCode

/-- `LOCK_PREEMPTION`. -/
def lockPreemption (s : Pcb) : Outcome :=
  s.withCurrent fun node =>
    if s.errorHandlerProcess = some node.data ∨ s.status.operatingMode ≠ .normal then
      (s, some { returnCode := .noAction, value := s.status.lockLevel })
    else thenRefreshLockLevel
      (s.krnlAcquireMutex preemptionLockMutex infiniteTimeValue fun _ => .lockPreemption)

/-- `UNLOCK_PREEMPTION`. -/
def unlockPreemption (s : Pcb) : Outcome :=
  s.withCurrent fun node =>
    if s.errorHandlerProcess = some node.data ∨ s.status.operatingMode ≠ .normal
        ∨ s.status.lockLevel = 0 then
      (s, some { returnCode := .noAction, value := s.status.lockLevel })
    else if (s.proc node.data).ownedMutexId ≠ preemptionLockMutex then
      (s, some { returnCode := .invalidMode, value := s.status.lockLevel })
    else thenRefreshLockLevel (s.krnlReleaseMutex preemptionLockMutex .unlockPreemption)

end Pcb

end UcxArinc
