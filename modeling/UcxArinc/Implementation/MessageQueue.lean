import UcxArinc.Implementation.KernelSemaphore

set_option autoImplicit false

/-! # Pointer queues and message queues

`lib/queue.c` with the array its entries are kept in, and `kernel/message.c` over it. Memory is taken as
available; how much of it a queue gets is what `queue_create` asks for. Entries are addresses, 0 the null
pointer. -/

namespace UcxArinc

/-- The sizes of a pointer on the targets of `arch/`. -/
inductive PointerSize
  | avr
  | bits32
  | bits64
  deriving DecidableEq, Repr

/-- `sizeof(void *)`. -/
def PointerSize.bytes : PointerSize → Nat
  | .avr => 2
  | .bits32 => 4
  | .bits64 => 8

/-- A queue and the number of slots there are at its `pdata`. -/
structure PointerQueue where
  queue : Queue
  slots : Nat

namespace PointerQueue

/-- `queue_create`, with what memory holds in the new array. `ucx_malloc` takes the array's size as a
    `uint32_t`. -/
def queueCreate (pointer : PointerSize) (pdata : Nat → Nat) (size : Int32) : PointerQueue :=
  ⟨UcxArinc.queueCreate pdata size.toInt.toNat,
    u32 (queueSize size.toInt.toNat * pointer.bytes) / pointer.bytes⟩

/-- `queue_count`. -/
def queueCount (q : PointerQueue) : Nat := q.queue.elem

/-- `queue_enqueue`; `none` is a write outside the array. -/
def queueEnqueue (q : PointerQueue) (data : Nat) : Option (PointerQueue × Int) :=
  match q.queue.enqueue data with
  | none => some (q, -1)
  | some queue => if q.queue.tail < q.slots then some ({ q with queue := queue }, 0) else none

/-- `queue_dequeue`; `none` is a read outside the array. -/
def queueDequeue (q : PointerQueue) : Option (PointerQueue × Nat) :=
  match q.queue.dequeue with
  | none => some (q, 0)
  | some (queue, data) =>
    if q.queue.head < q.slots then some ({ q with queue := queue }, data) else none

/-- `queue_peek`; `none` is a read outside the array. -/
def queuePeek (q : PointerQueue) : Option Nat :=
  if q.queue.head = q.queue.tail then some 0
  else if q.queue.head < q.slots then some (q.queue.pdata q.queue.head)
  else none

end PointerQueue

/-! ## `kernel/message.c` -/

/-- `struct mq_s`. -/
structure Mq where
  queue : PointerQueue

namespace Mq

/-- `ucx_mq_create`. -/
def ucxMqCreate (pointer : PointerSize) (pdata : Nat → Nat) (size : UInt16) : Mq :=
  ⟨PointerQueue.queueCreate pointer pdata (Int32.ofNat size.toNat)⟩

/-- `ucx_mq_enqueue`. -/
def ucxMqEnqueue (mq : Mq) (m : Nat) : Option (Mq × Int) :=
  (mq.queue.queueEnqueue m).map fun r => (⟨r.1⟩, r.2)

/-- `ucx_mq_dequeue`. -/
def ucxMqDequeue (mq : Mq) : Option (Mq × Nat) :=
  mq.queue.queueDequeue.map fun r => (⟨r.1⟩, r.2)

/-- `ucx_mq_peek`. -/
def ucxMqPeek (mq : Mq) : Option Nat := mq.queue.queuePeek

/-- `ucx_mq_items`. -/
def ucxMqItems (mq : Mq) : Nat := mq.queue.queueCount

end Mq

/-- A call on a queue, direct or through `ucx_mq_*`. -/
inductive QueueCall
  | enqueue (data : Nat)
  | dequeue
  | peek
  | count
  | mqEnqueue (m : Nat)
  | mqDequeue
  | mqPeek
  | mqItems
  deriving DecidableEq, Repr

/-- What a call returns. -/
inductive QueueAnswer
  | status (value : Int)
  | pointer (data : Nat)
  | items (n : Nat)
  deriving DecidableEq, Repr

/-- One call on the queue of a message queue; `none` is an access outside the array. -/
def Mq.step (mq : Mq) : QueueCall → Option (Mq × QueueAnswer)
  | .enqueue data => (mq.queue.queueEnqueue data).map fun r => (⟨r.1⟩, .status r.2)
  | .dequeue => mq.queue.queueDequeue.map fun r => (⟨r.1⟩, .pointer r.2)
  | .peek => mq.queue.queuePeek.map fun data => (mq, .pointer data)
  | .count => some (mq, .items mq.queue.queueCount)
  | .mqEnqueue m => (mq.ucxMqEnqueue m).map fun r => (r.1, .status r.2)
  | .mqDequeue => mq.ucxMqDequeue.map fun r => (r.1, .pointer r.2)
  | .mqPeek => mq.ucxMqPeek.map fun data => (mq, .pointer data)
  | .mqItems => some (mq, .items mq.ucxMqItems)

end UcxArinc
