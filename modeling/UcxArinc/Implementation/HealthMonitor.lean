import UcxArinc.Implementation.ProcessManagement

set_option autoImplicit false

/-! # Health monitoring

`kernel/hm.c` and `arinc/arinc_HM.c`, but for their log, which is a module of its own. -/

namespace UcxArinc

namespace Pcb

/-! ## The error list -/

/-- `hm_write_error`. -/
def hmWriteError (s : Pcb) (error : ErrorStatus) : Pcb :=
  let cb := s.errorListCb
  { s with errorListCb := { cb with
      processErrorList := Function.update cb.processErrorList cb.writeIndex error
      writeIndex := (cb.writeIndex + 1) % cb.maxErrors
      nbErrors := cb.nbErrors + 1 } }

/-- `hm_read_error`. -/
def hmReadError (s : Pcb) : Pcb × ErrorStatus :=
  let cb := s.errorListCb
  ({ s with errorListCb := { cb with
      readIndex := (cb.readIndex + 1) % cb.maxErrors
      nbErrors := cb.nbErrors - 1 } }, cb.processErrorList cb.readIndex)

/-! ## Raising errors -/

/-- `hm_raise_partition_error`: only `IGNORE` acts, on the failed process if it is found. The module
    level only reports. -/
def hmRaisePartitionError (s : Pcb) (error : ErrorStatus) : Pcb :=
  match s.conf.partitionHmTable (4 * s.status.operatingMode.row + error.errorCode.column) with
  | .ignore =>
    match s.isProcessIdExisted error.failedProcessId with
    | none => s
    | some node => s.modProc node.data fun x => { x with processState := .ready }
  | _ => s

/-- The error handler is started if it is `DORMANT` or `WAITING`. -/
def wakeErrorHandler (s : Pcb) (errorProcess : Nat) : Option Pcb :=
  if (s.proc errorProcess).processState = .dormant ∨
      (s.proc errorProcess).processState = .waiting then
    some (s.modProc errorProcess fun x => { x with processState := .ready, context := .entry })
  else none

/-- `hm_raise_error` for a fault of the running process. -/
def hmRaiseError (s : Pcb) (errorCode : ErrorCode) (messageAddr : Area) (length : Int) : Outcome :=
  s.withCurrent fun node =>
    let p := node.data
    let s := s.modProc p fun x => { x with processState := .faulted }
    let error : ErrorStatus :=
      { failedProcessId := (s.proc p).processId
        errorCode := errorCode
        length := length
        message := messageAddr.bytes length.toNat }
    match s.errorHandlerProcess with
    | none => ((s.hmRaisePartitionError error).toPartitionOs, none)
    | some errorProcess =>
      if p = errorProcess then ((s.hmRaisePartitionError error).toPartitionOs, none)
      else
        let s := s.hmWriteError error
        (((s.wakeErrorHandler errorProcess).getD s).toPartitionOs, none)

/-- What `RAISE_APPLICATION_ERROR` does once there is room in the error list. -/
def raiseToErrorHandler (s : Pcb) (current : Nat) (error : ErrorStatus) : Outcome :=
  let s := s.hmWriteError error
  match s.errorHandlerProcess with
  | none => s.crash
  | some errorProcess =>
    match s.wakeErrorHandler errorProcess with
    | none => s.ret .noError
    | some s => s.yieldToPartition current .raiseApplicationError

/-- `RAISE_APPLICATION_ERROR`. -/
def raiseApplicationError (s : Pcb) (errorCode : ErrorCode) (messageAddr : Area) (length : Int) :
    Outcome :=
  s.withCurrent fun node =>
    let current := node.data
    if length < 0 ∨ maxErrorMessageSize < length then s.ret .invalidParam
    else if errorCode ≠ .applicationError then s.ret .invalidParam
    else
      let error : ErrorStatus :=
        { failedProcessId := (s.proc current).processId
          errorCode := errorCode
          length := length
          message := messageAddr.bytes length.toNat }
      if s.errorHandlerProcess = some current ∨ s.errorHandlerProcess = none then
        (s.hmRaisePartitionError error).ret .noError
      else if s.errorListCb.nbErrors = s.errorListCb.maxErrors then
        let s := s.modProc current fun x => { x with
          processState := .waiting
          pendingError := error }
        -- the error queue grows at its head and is not counted
        let waiters := current :: s.waitingProcesses .errorProcesses
        let s := { s with
          waitingProcesses := Function.update s.waitingProcesses .errorProcesses waiters }
        s.yieldToPartition current (.raiseApplicationErrorFull error)
      else s.raiseToErrorHandler current error

/-- `GET_ERROR_STATUS`. -/
def getErrorStatus (s : Pcb) : Outcome :=
  s.withCurrent fun node =>
    if s.errorHandlerProcess ≠ some node.data then s.ret .invalidMode
    else if s.errorListCb.nbErrors = 0 then s.ret .noAction
    else
      let (s, error) := s.hmReadError
      let result : Result := { returnCode := .noError, error := some error }
      match s.wakeFirst .errorProcesses false with
      | none => (s, some result)
      | some (p, s) => (s.hmWriteError (s.proc p).pendingError, some result)

/-- `CREATE_ERROR_HANDLER`: its record keeps the identifier the memory held. -/
def createErrorHandler (s : Pcb) (stackSize : Nat) : Outcome :=
  if s.errorHandlerProcess.isSome then s.ret .noAction
  else if s.conf.addr (s.conf.dataBase + s.conf.dataSize) < s.conf.addr (s.nextStackAddr + stackSize) then
    s.ret .invalidConfig
  else if stackSize = 0 then s.ret .invalidConfig
  else if s.status.operatingMode = .normal then s.ret .invalidMode
  else
    let p := s.nextProc
    let s := { s with nbrProcesses := s.nbrProcesses + 1, nextProc := s.nextProc + 1 }
    let stackSz := stackSize % 2 ^ 16
    let s := s.modProc p fun x => { x with
      deadlineTime := infiniteTimeValue
      currentPriority := maxPriorityValue
      processState := .dormant
      attributes := { x.attributes with
        period := infiniteTimeValue
        basePriority := maxPriorityValue
        name := [] }
      rtPrio := 0
      stack := s.nextStackAddr
      stackSz := stackSz
      processIndex := s.nbrProcesses
      processorCoreAffinity := defaultProcessCoreAffinity
      releasePointTime := 0
      isSuspended := false
      timeCounter := 0
      savedInitDelay := 0
      ownedMutexId := noMutexOwned }
    let s := { s with nextStackAddr := s.conf.roundUp (s.conf.addr (s.nextStackAddr + stackSz)) }
    let s := (s.listPushback p).1
    ({ s with
        errorHandlerProcess := some p
        errorListCb := { s.errorListCb with readIndex := 0, writeIndex := 0, nbErrors := 0 } },
      some { returnCode := .noError })

end Pcb

end UcxArinc
