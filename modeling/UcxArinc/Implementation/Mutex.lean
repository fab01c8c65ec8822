import UcxArinc.Implementation.Partition

set_option autoImplicit false

/-! # Mutexes

`kernel/mutex.c` and the mutex services of `arinc_intrapartition_communication.c`. The hand-over of
a mutex to its first waiter is written out three times in the source (`krnl_release_mutex`,
`RESET_MUTEX`, `STOP_SELF`); it is `handMutexOver` here. -/

namespace UcxArinc

namespace Pcb

/-! ## Acquiring and releasing -/

/-- Mutex `index` is given to process `p`, whose priority is saved and raised; `lockCount` is the
    new lock count. -/
def giveMutex (s : Pcb) (index : Nat) (p : Nat) (mutexId : Int) : Pcb :=
  let mutex := s.res.mutexes index
  let s := s.setMutex index { mutex with
    mutexState := .owned
    mutexOwner := (s.proc p).processId
    lockCount := mutex.lockCount + 1
    savedOwnerPriority := (s.proc p).currentPriority }
  s.modProc p fun x => { x with
    ownedMutexId := mutexId
    currentPriority := mutex.mutexPriority }

/-- The block `if (mutex->waiting_processes->length > 0)`: the first waiter gets the mutex, becomes
    `READY` and moves to the head of the process list. `none` when its node is not found. -/
def handMutexOver (s : Pcb) (index : Nat) (mutexId : Int) : Option Pcb :=
  match s.wakeFirst (.mutex index) true with
  | none => some s
  | some (woken, s) =>
    let s := s.giveMutex index woken mutexId
    match s.isProcessIdExisted (s.proc woken).processId with
    | none => none
    | some node => some ((s.listRemove node).listPush woken).1

/-- Process `p`, whose node is `node`, gives mutex `index` back and moves to the head of the process
    list. Returns its new node. -/
def takeMutexBack (s : Pcb) (index : Nat) (p : Nat) (node : Node) : Pcb × Node :=
  let mutex := s.res.mutexes index
  let s := s.setMutex index { mutex with
    mutexState := .available
    mutexOwner := nullProcessId
    lockCount := 0 }
  let s := s.modProc p fun x => { x with
    ownedMutexId := noMutexOwned
    currentPriority := mutex.savedOwnerPriority }
  (s.listRemove node).listPush p

/-- `krnl_acquire_mutex`; `k` is where the caller resumes after an infinite (`false`) or a timed
    (`true`) wait. -/
def krnlAcquireMutex (s : Pcb) (mutexId : Int) (timeOut : Int) (k : Bool → Context) : Outcome :=
  match s.findMutexById mutexId with
  | none => s.ret .invalidParam
  | some index =>
    if s.timeOutInvalid timeOut then s.ret .invalidParam
    else s.withCurrent fun node =>
      let current := node.data
      let mutex := s.res.mutexes index
      if (s.proc current).ownedMutexId ≠ noMutexOwned ∧ (s.proc current).ownedMutexId ≠ mutexId then
        s.ret .invalidMode
      else if s.errorHandlerProcess = some current then s.ret .invalidMode
      else if mutex.mutexPriority < (s.proc current).currentPriority then s.ret .invalidMode
      else if mutex.mutexState = .available then
        let (s, newNode) := ((s.giveMutex index current mutexId).listRemove node).listPush current
        (s.setCurrent (some newNode)).ret .noError
      else if mutex.mutexOwner = (s.proc current).processId then
        if mutex.lockCount = maxLockLevel then s.ret .invalidConfig
        else (s.setMutex index { mutex with lockCount := mutex.lockCount + 1 }).ret .noError
      else if timeOut = 0 then s.ret .notAvailable
      else if timeOut = infiniteTimeValue then
        (s.waitOn current (.mutex index) true mutex.queuingDiscipline none).yieldToPartition current
          (k false)
      else
        (s.waitOn current (.mutex index) true mutex.queuingDiscipline
          (some (s.fromNow timeOut))).yieldToPartition current (k true)

/-- `krnl_release_mutex`; `k` is where the caller resumes. -/
def krnlReleaseMutex (s : Pcb) (mutexId : Int) (k : Context) : Outcome :=
  match s.findMutexById mutexId with
  | none => s.ret .invalidParam
  | some index => s.withCurrent fun node =>
    let current := node.data
    if (s.proc current).ownedMutexId ≠ mutexId then s.ret .invalidMode
    else
      let mutex := s.res.mutexes index
      if mutex.lockCount - 1 = 0 then
        let (s, newNode) := s.takeMutexBack index current node
        let s := s.setCurrent (some newNode)
        match s.handMutexOver index mutexId with
        | none => s.crash
        | some s => s.yieldToPartition current k
      else (s.setMutex index { mutex with lockCount := mutex.lockCount - 1 }).ret .noError

/-! ## Services -/

/-- `ACQUIRE_MUTEX`. -/
def acquireMutex (s : Pcb) (mutexId timeOut : Int) : Outcome :=
  if mutexId = preemptionLockMutex then s.ret .invalidParam
  else s.krnlAcquireMutex mutexId timeOut .acquireMutex

/-- `RELEASE_MUTEX`. -/
def releaseMutex (s : Pcb) (mutexId : Int) : Outcome :=
  if mutexId = preemptionLockMutex then s.ret .invalidParam
  else s.krnlReleaseMutex mutexId .releaseMutex

/-- `if (mutex->mutex_id == PREEMPTION_LOCK_MUTEX) LOCK_LEVEL = 0`. -/
def resetLockLevel (s : Pcb) (index : Nat) : Pcb :=
  if (s.res.mutexes index).mutexId = preemptionLockMutex then
    { s with status := { s.status with lockLevel := 0 } }
  else s

/-- What `RESET_MUTEX` and `STOP_SELF` do to a mutex that `p` owns: it is given back and handed over.
    `none` when a node is not found. -/
def resetOwnedMutex (s : Pcb) (index : Nat) (p : Nat) (node : Node) : Option Pcb :=
  let mutexId := (s.res.mutexes index).mutexId
  let (s, newNode) := (s.resetLockLevel index).takeMutexBack index p node
  let s := if (s.proc p).processState = .running then s.setCurrent (some newNode) else s
  s.handMutexOver index mutexId

/-- `RESET_MUTEX`. -/
def resetMutex (s : Pcb) (mutexId processId : Int) : Outcome :=
  s.withCurrent fun currentNode =>
    let current := currentNode.data
    if s.status.operatingMode ≠ .normal then s.ret .invalidMode
    else
      match s.findMutexById mutexId with
      | none => s.ret .invalidParam
      | some index =>
        if mutexId = preemptionLockMutex ∧ s.errorHandlerProcess ≠ some current then
          s.ret .invalidParam
        else
          match s.isProcessIdExisted processId with
          | none => s.ret .invalidParam
          | some node =>
            if (s.proc node.data).ownedMutexId ≠ mutexId then s.ret .invalidMode
            else if s.errorHandlerProcess ≠ some current ∧ (s.proc current).processId ≠ processId then
              s.ret .invalidMode
            else
              match s.resetOwnedMutex index node.data node with
              | none => s.crash
              | some s => s.yieldToPartition current .resetMutex

/-- `CREATE_MUTEX`. -/
def createMutex (s : Pcb) (mutexName : Name) (mutexPriority queuingDiscipline : Int) : Outcome :=
  if s.conf.maxMutexes < s.res.mutexCount + 1 then s.ret .invalidConfig
  else if (s.findMutexByName mutexName).isSome then s.ret .noAction
  else if mutexPriority < 0 then s.ret .invalidParam
  else
    match QueuingDiscipline.ofInt? queuingDiscipline with
    | none => s.ret .invalidParam
    | some discipline =>
      if s.status.operatingMode = .normal then s.ret .invalidMode
      else
        let index := s.res.mutexCount
        let mutex := s.res.mutexes index
        let s := s.setMutex index { mutex with
          mutexName := strncpyName mutexName
          mutexId := index + 1
          queuingDiscipline := discipline
          mutexState := .available
          mutexPriority := mutexPriority
          lockCount := 0 }
        let s := s.freshWaitList (.mutex index)
        ({ s with res := { s.res with mutexCount := index + 1 } },
          some { returnCode := .noError, value := index + 1 })

end Pcb

end UcxArinc
