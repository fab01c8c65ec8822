import UcxArinc.Implementation.Records

set_option autoImplicit false

/-! # The partition control block

`pcb_s`, together with the kernel memory its services reach, as one state `Pcb`. The process list
keeps the identity of its nodes (`process_current` points to a node, not to a process); the heap of
process records is the map `proc`.

Every service is a function `Pcb → Outcome`: `some result` when the call returns to its caller, and
`none` when control has gone back to `partition_OS` (a yield or a `longjmp`) or the code followed a
null pointer, which `ctl` tells apart. -/

namespace UcxArinc

/-! ## The state -/

/-- A node of `partition->processes`. -/
structure Node where
  id : Nat
  data : Nat
  deriving DecidableEq, Repr

/-- Which code of the partition the processor executes. -/
inductive Control
  /-- the loop of `partition_OS` -/
  | partitionOs
  /-- the partition's entry point, in `COLD_START` or `WARM_START` -/
  | mainProcess
  /-- the process `process_current` points to -/
  | process
  /-- a null pointer was followed -/
  | crashed
  deriving DecidableEq, Repr

/-- The fields of `PARTITION_STATUS_TYPE` the services use. -/
structure PartitionStatus where
  identifier : Int
  period : Int
  lockLevel : Int
  operatingMode : OperatingMode

/-- The fields of `pcb_s` that `partition_init` sets once. The tables are read as memory, row by
    row of four cells. -/
structure PartitionConf where
  dataBase : Nat
  dataSize : Nat
  maxSamplingPorts : Nat
  maxSamplingPortDataSize : Int
  maxQueuingPorts : Nat
  maxQueuingPortDataSize : Int
  maxBlackboards : Nat
  maxBlackboardDataSize : Int
  maxBuffers : Nat
  maxBufferDataSize : Int
  maxSemaphores : Nat
  maxEvents : Nat
  maxMutexes : Nat
  partitionHmTable : Nat → ErrorAction
  hmTableModule : Nat → ErrorAction
  /-- The number of addresses of the target: `2 ^ 32`, or `2 ^ 64`. -/
  addressSpace : Nat

/-- A sum of a pointer and an offset. -/
def PartitionConf.addr (conf : PartitionConf) (n : Nat) : Nat := n % conf.addressSpace

/-- A 64-bit number that is passed as a pointer keeps the low bits, with the sign they have. -/
def PartitionConf.throughPointer (conf : PartitionConf) (n : Int) : Int := i64 (n.bmod conf.addressSpace)

/-- A pointer rounded up to 16 bytes. -/
def PartitionConf.roundUp (conf : PartitionConf) (a : Nat) : Nat := conf.addr (a + 15) / 16 * 16

/-- The static arrays of resources with their counts, and the message stores behind them. -/
structure Resources where
  samplingPorts : Nat → SamplingPort
  samplingPortCount : Nat
  queuingPorts : Nat → QueuingPort
  queuingPortCount : Nat
  blackboards : Nat → Blackboard
  blackboardCount : Nat
  blackboardsData : Area
  blackboardsSizeData : Nat → Int
  buffers : Nat → Buffer
  bufferCount : Nat
  buffersData : Area
  buffersSizeData : Nat → Nat
  semaphores : Nat → Semaphore
  semaphoreCount : Nat
  events : Nat → Event
  eventCount : Nat
  mutexes : Nat → Mutex
  mutexCount : Nat

/-- What the observer of a run sees of the buffers: a message accepted by a buffer, a message
    assigned to a receiving process, the `MESSAGE` and `LENGTH` a receive returns. No code reads
    it. -/
inductive Obs
  | accepted (buffer : Nat) (message : List UInt8)
  | assigned (buffer process : Nat) (message : List UInt8)
  | received (buffer process : Nat) (message : List UInt8) (length : Int)
  deriving DecidableEq, Repr

/-- `pcb_s`, with the kernel memory the partition sees and the code it executes. -/
structure Pcb where
  status : PartitionStatus
  conf : PartitionConf
  res : Resources
  /-- `nbr_processes`. -/
  nbrProcesses : Nat
  /-- `id_next`. -/
  idNext : Nat
  /-- `next_stack_addr`. -/
  nextStackAddr : Nat
  /-- The process records; cells from `nextProc` on are what `malloc` will hand out. -/
  proc : Nat → Process
  nextProc : Nat
  processes : List Node
  nextNode : Nat
  processCurrent : Option Node
  errorHandlerProcess : Option Nat
  /-- The `waiting_processes` lists. -/
  waitingProcesses : WaitList → List Nat
  /-- The `WAITING_PROCESSES` counters. -/
  waitingCount : WaitKind × Nat → Int
  errorListCb : ErrorList
  lastTick : Nat
  krnl : Krnl
  ctl : Control
  /-- Ghost history. -/
  log : List Obs

/-- The state a service leaves and what it returns to its caller, if it returns. -/
abbrev Outcome := Pcb × Option Result

namespace Pcb

/-! ## Leaving a service -/

/-- `*RETURN_CODE = rc; return;` -/
def ret (s : Pcb) (rc : ReturnCode) : Outcome := (s, some { returnCode := rc })

/-- A null pointer is followed. -/
def crash (s : Pcb) : Outcome := ({ s with ctl := .crashed }, none)

/-- `longjmp(partition->partition_context, 1)`. -/
def toPartitionOs (s : Pcb) : Pcb := { s with ctl := .partitionOs }

/-- Run `f` on the node `process_current` points to. -/
def withCurrent (s : Pcb) (f : Node → Outcome) : Outcome :=
  match s.processCurrent with
  | none => s.crash
  | some node => f node

/-! ## Updating one record -/

/-- Rewrite the record of process `p`. -/
def modProc (s : Pcb) (p : Nat) (f : Process → Process) : Pcb :=
  { s with proc := Function.update s.proc p (f (s.proc p)) }

/-- Save the context of `p` and jump to the partition OS: `yield_to_partition`. -/
def yieldToPartition (s : Pcb) (p : Nat) (k : Context) : Outcome :=
  ((s.modProc p fun x => { x with context := k }).toPartitionOs, none)

/-- Append to the ghost history. -/
def emit (s : Pcb) (o : Obs) : Pcb := { s with log := s.log ++ [o] }

def setSemaphore (s : Pcb) (i : Nat) (x : Semaphore) : Pcb :=
  { s with res := { s.res with semaphores := Function.update s.res.semaphores i x } }

def setEventRecord (s : Pcb) (i : Nat) (x : Event) : Pcb :=
  { s with res := { s.res with events := Function.update s.res.events i x } }

def setBlackboard (s : Pcb) (i : Nat) (x : Blackboard) : Pcb :=
  { s with res := { s.res with blackboards := Function.update s.res.blackboards i x } }

def setBuffer (s : Pcb) (i : Nat) (x : Buffer) : Pcb :=
  { s with res := { s.res with buffers := Function.update s.res.buffers i x } }

def setMutex (s : Pcb) (i : Nat) (x : Mutex) : Pcb :=
  { s with res := { s.res with mutexes := Function.update s.res.mutexes i x } }

def setQueuingChannel (s : Pcb) (c : Nat) (x : QueuingChannel) : Pcb :=
  { s with krnl := { s.krnl with
      queuingChannels := Function.update s.krnl.queuingChannels c x } }

/-! ## The process list -/

/-- `list_remove(partition->processes, node)`. -/
def listRemove (s : Pcb) (node : Node) : Pcb := { s with processes := s.processes.erase node }

/-- `list_push(partition->processes, process)`, with the new node. -/
def listPush (s : Pcb) (p : Nat) : Pcb × Node :=
  let node : Node := ⟨s.nextNode, p⟩
  ({ s with processes := node :: s.processes, nextNode := s.nextNode + 1 }, node)

/-- `list_pushback(partition->processes, process)`, with the new node. -/
def listPushback (s : Pcb) (p : Nat) : Pcb × Node :=
  let node : Node := ⟨s.nextNode, p⟩
  ({ s with processes := s.processes ++ [node], nextNode := s.nextNode + 1 }, node)

/-- `process_current = node`. -/
def setCurrent (s : Pcb) (node : Option Node) : Pcb := { s with processCurrent := node }

/-- `is_process_id_existed`: the first node whose process carries the identifier. -/
def isProcessIdExisted (s : Pcb) (id : Int) : Option Node :=
  s.processes.find? fun n => decide ((s.proc n.data).processId = id)

/-- `list_foreach(partition->processes, f, 0)` for an `f` that rewrites the process it visits and
    returns 0. -/
def forEachProcess (s : Pcb) (f : Process → Process) : Pcb :=
  s.processes.foldl (fun s n => s.modProc n.data f) s

/-! ## Waiting lists -/

/-- `list_insert_sorted` under `PRIORITY`, `list_pushback` under `FIFO`. -/
def insertWaiting (s : Pcb) (q : WaitList) (discipline : QueuingDiscipline) (p : Nat) : Pcb :=
  let waiters := s.waitingProcesses q
  let waiters' := match discipline with
    | .priority => waiters.orderedInsert
        (fun a b => (s.proc b).currentPriority < (s.proc a).currentPriority) p
    | .fifo => waiters ++ [p]
  { s with waitingProcesses := Function.update s.waitingProcesses q waiters' }

/-- Add `d` to the `WAITING_PROCESSES` counter of the resource list `q` belongs to. -/
def addWaitingCount (s : Pcb) (q : WaitList) (d : Int) : Pcb :=
  match q.kind with
  | none => s
  | some k => { s with
      waitingCount := Function.update s.waitingCount (k, q.index)
        (s.waitingCount (k, q.index) + d) }

/-- `list_create()` for list `q`, with `WAITING_PROCESSES = 0`. -/
def freshWaitList (s : Pcb) (q : WaitList) : Pcb :=
  let s := { s with waitingProcesses := Function.update s.waitingProcesses q [] }
  match q.kind with
  | none => s
  | some k => { s with waitingCount := Function.update s.waitingCount (k, q.index) 0 }

/-- The blocking half of a service: `p` becomes `WAITING`, is counted and linked into list `q`; its
    back-pointer is set when the service sets it (`linked`), and so is its `time_counter`. -/
def waitOn (s : Pcb) (p : Nat) (q : WaitList) (linked : Bool) (discipline : QueuingDiscipline)
    (timer : Option Int) : Pcb :=
  let s := s.modProc p fun x => { x with
    processState := .waiting
    waiting := match linked, q.kind with
      | true, some k => Function.update x.waiting k (some q.index)
      | _, _ => x.waiting
    timeCounter := timer.getD x.timeCounter }
  (s.addWaitingCount q 1).insertWaiting q discipline p

/-- A woken process: `READY`, its back-pointer cleared, and a running time-out cancelled when the
    waking service does so. -/
def wakeProcess (k : Option WaitKind) (cancelTimer : Bool) (x : Process) : Process :=
  { x with
    processState := .ready
    waiting := match k with
      | some k => Function.update x.waiting k none
      | none => x.waiting
    timeCounter :=
      if cancelTimer ∧ x.timeCounter ≠ 0 then infiniteTimeValue else x.timeCounter }

/-- Take the first waiter out of list `q` and wake it. -/
def wakeFirst (s : Pcb) (q : WaitList) (cancelTimer : Bool) : Option (Nat × Pcb) :=
  match s.waitingProcesses q with
  | [] => none
  | p :: rest =>
    let s := { s with waitingProcesses := Function.update s.waitingProcesses q rest }
    some (p, (s.addWaitingCount q (-1)).modProc p (wakeProcess q.kind cancelTimer))

/-- `while (length > 0)` wake the first waiter, for a list of the given length. -/
def wakeAllAux (q : WaitList) : Nat → Pcb → Pcb
  | 0, s => s
  | n + 1, s =>
    match s.wakeFirst q true with
    | none => s
    | some (_, s') => wakeAllAux q n s'

/-- `while (length > 0)` wake the first waiter. -/
def wakeAll (s : Pcb) (q : WaitList) : Pcb := wakeAllAux q (s.waitingProcesses q).length s

/-! ## Looking resources up -/

/-- `for (i = 0; i < count; i++) if (f(i)) return i; return -1;` -/
def findIndex (count : Nat) (f : Nat → Bool) : Option Nat := (List.range count).find? f

def findBlackboardByName (s : Pcb) (name : Name) : Option Nat :=
  findIndex s.res.blackboardCount fun i => decide ((s.res.blackboards i).blackboardName = name)

def findBlackboardById (s : Pcb) (id : Int) : Option Nat :=
  findIndex s.res.blackboardCount fun i => decide ((s.res.blackboards i).blackboardId = id)

def findBufferByName (s : Pcb) (name : Name) : Option Nat :=
  findIndex s.res.bufferCount fun i => decide ((s.res.buffers i).bufferName = name)

def findBufferById (s : Pcb) (id : Int) : Option Nat :=
  findIndex s.res.bufferCount fun i => decide ((s.res.buffers i).bufferId = id)

def findSemaphoreByName (s : Pcb) (name : Name) : Option Nat :=
  findIndex s.res.semaphoreCount fun i => decide ((s.res.semaphores i).semaphoreName = name)

def findSemaphoreById (s : Pcb) (id : Int) : Option Nat :=
  findIndex s.res.semaphoreCount fun i => decide ((s.res.semaphores i).semaphoreId = id)

def findEventByName (s : Pcb) (name : Name) : Option Nat :=
  findIndex s.res.eventCount fun i => decide ((s.res.events i).eventName = name)

def findEventById (s : Pcb) (id : Int) : Option Nat :=
  findIndex s.res.eventCount fun i => decide ((s.res.events i).eventId = id)

def findMutexByName (s : Pcb) (name : Name) : Option Nat :=
  findIndex s.res.mutexCount fun i => decide ((s.res.mutexes i).mutexName = name)

def findMutexById (s : Pcb) (id : Int) : Option Nat :=
  findIndex s.res.mutexCount fun i => decide ((s.res.mutexes i).mutexId = id)

def findSamplingPortByName (s : Pcb) (name : Name) : Option Nat :=
  findIndex s.res.samplingPortCount fun i =>
    decide ((s.res.samplingPorts i).samplingPortName = name)

def findSamplingPortById (s : Pcb) (id : Int) : Option Nat :=
  findIndex s.res.samplingPortCount fun i => decide ((s.res.samplingPorts i).samplingPortId = id)

def findQueuingPortByName (s : Pcb) (name : Name) : Option Nat :=
  findIndex s.res.queuingPortCount fun i => decide ((s.res.queuingPorts i).queuingPortName = name)

def findQueuingPortById (s : Pcb) (id : Int) : Option Nat :=
  findIndex s.res.queuingPortCount fun i => decide ((s.res.queuingPorts i).queuingPortId = id)

/-! ## Time -/

/-- The test with which every service refuses a `TIME_OUT`. -/
def timeOutInvalid (s : Pcb) (timeOut : Int) : Bool :=
  decide (timeOut < infiniteTimeValue) ||
    (decide (0 ≤ timeOut) && timeOverflow (s.krnl.uptime + timeOut.toNat))

/-- `(SYSTEM_TIME_TYPE)ucx_uptime() + t`; the checks before it keep the sum in range. -/
def fromNow (s : Pcb) (t : Int) : Int := s.krnl.uptime + t

/-- `update_process_deadline`. -/
def updateProcessDeadline (baseTime : Int) (x : Process) : Process :=
  { x with deadlineTime :=
      if x.attributes.timeCapacity = infiniteTimeValue then infiniteTimeValue
      else i64 (baseTime + x.attributes.timeCapacity) }

/-- The caller may not block: it owns a mutex or is the error handler. -/
def cannotBlock (s : Pcb) (p : Nat) : Bool :=
  decide ((s.proc p).ownedMutexId ≠ noMutexOwned) || decide (s.errorHandlerProcess = some p)

end Pcb

end UcxArinc
