import UcxArinc.Implementation.TaskScheduler

set_option autoImplicit false

/-! # Kernel semaphores

`kernel/semaphore.c` over the queue of `lib/queue.c`. Tasks are numbers; a call runs to the end of its
critical section, and which task runs next is left open, so that any interleaving of calls is a run.
Memory for the semaphore is taken as available. -/

namespace UcxArinc

/-! ## `lib/queue.c` -/

/-- `ispowerof2`. -/
def ispowerof2 (x : Nat) : Bool := decide (x ≠ 0 ∧ x &&& (x - 1) = 0)

/-- `nextpowerof2`. -/
def nextpowerof2 (x : Nat) : Nat :=
  let x := u32Sub x 1
  let x := x ||| x >>> 1
  let x := x ||| x >>> 2
  let x := x ||| x >>> 4
  let x := x ||| x >>> 8
  let x := x ||| x >>> 16
  u32 (x + 1)

/-- `struct queue_s`. -/
structure Queue where
  pdata : Nat → Nat
  size : Nat
  mask : Nat
  head : Nat
  tail : Nat
  elem : Nat

/-- The size `queue_create` gives a queue it is asked for with `size`. -/
def queueSize (size : Nat) : Nat :=
  let size := if size < 2 then 2 else size
  if ispowerof2 size then size else nextpowerof2 size

/-- `queue_create`, with what memory holds in the new array. -/
def queueCreate (pdata : Nat → Nat) (size : Nat) : Queue :=
  ⟨pdata, queueSize size, queueSize size - 1, 0, 0, 0⟩

namespace Queue

/-- `queue_enqueue`; `none` is its -1. -/
def enqueue (q : Queue) (data : Nat) : Option Queue :=
  let tail := (q.tail + 1) &&& q.mask
  if tail = q.head then none
  else some { q with pdata := Function.update q.pdata q.tail data, tail := tail, elem := q.elem + 1 }

/-- `queue_dequeue`; `none` is its null pointer. -/
def dequeue (q : Queue) : Option (Queue × Nat) :=
  if q.head = q.tail then none
  else some ({ q with head := (q.head + 1) &&& q.mask, elem := q.elem - 1 }, q.pdata q.head)

end Queue

/-! ## `kernel/semaphore.c` -/

/-- `struct sem_s`. -/
structure Sem where
  semQueue : Queue
  count : Int

/-- `ucx_sem_create`, with what memory holds in the new queue; `none` is its null pointer. -/
def ucxSemCreate (pdata : Nat → Nat) (maxTasks : UInt16) (value : Int) : Option Sem :=
  if value < 0 then none else some ⟨queueCreate pdata maxTasks.toNat, value⟩

/-- A semaphore and the states of the tasks that use it. -/
structure SemKernel where
  sem : Sem
  state : Nat → TaskState

namespace SemKernel

/-- `ucx_sem_wait` by `task`, up to its yield; `none` is `krnl_panic`. -/
def ucxSemWait (s : SemKernel) (task : Nat) : Option SemKernel :=
  let count := i32 (s.sem.count - 1)
  if count < 0 then
    match s.sem.semQueue.enqueue task with
    | none => none
    | some queue =>
      some ⟨{ s.sem with semQueue := queue, count := count }, Function.update s.state task .blocked⟩
  else some { s with sem := { s.sem with count := count } }

/-- `ucx_sem_trywait`. -/
def ucxSemTrywait (s : SemKernel) : SemKernel × Int :=
  if s.sem.count ≤ 0 then (s, -1)
  else ({ s with sem := { s.sem with count := i32 (s.sem.count - 1) } }, 0)

/-- `ucx_sem_signal`; `none` is `krnl_panic`. -/
def ucxSemSignal (s : SemKernel) : Option SemKernel :=
  let count := i32 (s.sem.count + 1)
  if count ≤ 0 then
    match s.sem.semQueue.dequeue with
    | none => none
    | some (queue, task) =>
      some ⟨{ s.sem with semQueue := queue, count := count }, Function.update s.state task .ready⟩
  else some { s with sem := { s.sem with count := count } }

/-- A call on the semaphore. -/
inductive SemCall
  | wait (task : Nat)
  | trywait
  | signal
  deriving DecidableEq, Repr

/-- One call; `none` is `krnl_panic`. -/
def step (s : SemKernel) : SemCall → Option SemKernel
  | .wait task => s.ucxSemWait task
  | .trywait => some s.ucxSemTrywait.1
  | .signal => s.ucxSemSignal

end SemKernel

end UcxArinc
