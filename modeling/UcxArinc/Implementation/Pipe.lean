import UcxArinc.Implementation.KernelSemaphore

set_option autoImplicit false

/-! # Pipes

`kernel/pipe.c`. A task in a call takes the pipe for one byte at a time; in between, and while a blocking
call finds no byte or no room, other tasks run. Memory for a pipe is taken as available. -/

namespace UcxArinc

/-- The value of a `char` as a signed integer, on targets where plain `char` is signed and where it is not. -/
def charValue (signedChar : Bool) (c : UInt8) : Int :=
  if signedChar ∧ 128 ≤ c.toNat then (c.toNat : Int) - 256 else c.toNat

/-- A signed integer converted to `char`. -/
def toChar (x : Int) : UInt8 := UInt8.ofNat (x % 256).toNat

/-- `struct pipe_s`, and how many bytes there are at its `data`. -/
structure Pipe where
  data : Area
  bytes : Nat
  mask : Nat
  head : Nat
  tail : Nat
  size : Nat

namespace Pipe

/-- The size `ucx_pipe_create` gives a pipe it is asked for with `size`, a `uint16_t` throughout. -/
def pipeSize (size : UInt16) : Nat :=
  let size := if size.toNat < 2 then 2 else size.toNat
  if ispowerof2 size then size else nextpowerof2 size % 2 ^ 16

/-- `ucx_pipe_create`, with what memory holds in the new buffer. -/
def ucxPipeCreate (data : Area) (size : UInt16) : Pipe :=
  ⟨data, pipeSize size, u32Sub (pipeSize size) 1, 0, 0, 0⟩

/-- `ucx_pipe_flush`. -/
def ucxPipeFlush (pipe : Pipe) : Pipe := { pipe with head := 0, tail := 0, size := 0 }

/-- `ucx_pipe_get`. -/
def ucxPipeGet (signedChar : Bool) (pipe : Pipe) : Pipe × Int :=
  if pipe.head = pipe.tail then (pipe, -1)
  else
    ({ pipe with head := (pipe.head + 1) &&& pipe.mask, size := pipe.size - 1 },
      charValue signedChar (pipe.data pipe.head))

/-- `ucx_pipe_put`. -/
def ucxPipePut (pipe : Pipe) (data : UInt8) : Pipe × Int :=
  let tail := (pipe.tail + 1) &&& pipe.mask
  if tail = pipe.head then (pipe, -1)
  else
    ({ pipe with data := Function.update pipe.data pipe.tail data, tail := tail, size := pipe.size + 1 }, 0)

end Pipe

/-- The functions that move bytes. -/
inductive PipeFunction
  | read
  | write
  | nbread
  | nbwrite
  deriving DecidableEq, Repr

namespace PipeFunction

/-- `ucx_pipe_read` and `ucx_pipe_nbread`. -/
def Reads : PipeFunction → Prop
  | read | nbread => True
  | write | nbwrite => False

/-- `ucx_pipe_nbread` and `ucx_pipe_nbwrite`. -/
def NonBlocking : PipeFunction → Prop
  | nbread | nbwrite => True
  | read | write => False

instance : DecidablePred Reads
  | read | nbread => isTrue trivial
  | write | nbwrite => isFalse id

instance : DecidablePred NonBlocking
  | nbread | nbwrite => isTrue trivial
  | read | write => isFalse id

end PipeFunction

/-- A call in progress: the caller's buffer, the size asked for and how many bytes have been moved. -/
structure PipeCall where
  function : PipeFunction
  data : Area
  size : UInt16
  i : Nat

/-- The bytes a call has moved. -/
def PipeCall.moved (call : PipeCall) : List UInt8 := call.data.bytes call.i

/-- A pipe and the calls the tasks are in. -/
structure PipeSystem where
  pipe : Pipe
  calls : Nat → Option PipeCall

namespace PipeSystem

/-- What can happen to a pipe. -/
inductive Event
  | start (task : Nat) (function : PipeFunction) (data : Area) (size : UInt16)
  | turn (task : Nat)
  | flush

/-- The byte a turn of a call moves: one critical section. The second component is the call after it, if a
    byte has been moved. -/
def moveByte (signedChar : Bool) (pipe : Pipe) (call : PipeCall) : Pipe × Option PipeCall :=
  if call.function.Reads then
    let (pipe, byte) := pipe.ucxPipeGet signedChar
    if byte = -1 then (pipe, none)
    else (pipe, some { call with data := Function.update call.data call.i (toChar byte), i := call.i + 1 })
  else
    let (pipe, res) := pipe.ucxPipePut (call.data call.i)
    if res = -1 then (pipe, none) else (pipe, some { call with i := call.i + 1 })

/-- One event. A turn is one round of the call's loop, or its return; a call that moves no byte returns if
    it is non-blocking and yields if it is not. `none` is an event that cannot happen. -/
def step (signedChar : Bool) (s : PipeSystem) : Event → Option PipeSystem
  | .start task function data size =>
    match s.calls task with
    | some _ => none
    | none => some { s with calls := Function.update s.calls task (some ⟨function, data, size, 0⟩) }
  | .turn task =>
    match s.calls task with
    | none => none
    | some call =>
      if call.i < call.size.toNat then
        match moveByte signedChar s.pipe call with
        | (pipe, some call) => some ⟨pipe, Function.update s.calls task (some call)⟩
        | (pipe, none) =>
          if call.function.NonBlocking then some ⟨pipe, Function.update s.calls task none⟩
          else some { s with pipe := pipe }
      else some { s with calls := Function.update s.calls task none }
  | .flush => some { s with pipe := s.pipe.ucxPipeFlush }

end PipeSystem

end UcxArinc
