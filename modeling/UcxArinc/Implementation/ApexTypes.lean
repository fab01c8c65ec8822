import Mathlib.Algebra.Order.Ring.Int
import Mathlib.Data.List.Chain
import Mathlib.Data.List.Range
import Mathlib.Data.List.Sort

set_option autoImplicit false

/-! # APEX constants and enumerations

The scalar types of `include/arinc/*.h`. Identifiers, priorities, counts and times are signed C
integers and are modelled by `Int`; addresses, indexes and the unsigned counters of the kernel are
`Nat`, reduced modulo `2 ^ 32` or `2 ^ 64` exactly where the code can reach the wrap. -/

namespace UcxArinc

/-! ## Constants -/

/-- `INFINITE_TIME_VALUE`. -/
def infiniteTimeValue : Int := -1

/-- `MAX_SYSTEM_TIME`, the largest 64-bit signed time. -/
def maxSystemTime : Nat := 2 ^ 63 - 1

def minPriorityValue : Int := 1
def maxPriorityValue : Int := 239
def maxLockLevel : Int := 16
def maxNumberOfProcesses : Nat := 16
def maxErrorMessageSize : Int := 128
def maxNameLength : Nat := 32
def defaultProcessCoreAffinity : Int := 0
def nullProcessId : Int := 0
def nullMutexId : Int := 0
def noMutexOwned : Int := -1
def preemptionLockMutex : Int := 1

/-- `IDLE_PARTITION_ID`: no partition. -/
def idlePartitionId : Int := 0

/-- `PARTIION_OS_AND_MAIN_PROCESS_STACK_SIZE`. -/
def partitionOsAndMainProcessStackSize : Nat := 4096

/-! ## Enumerations -/

/-- `RETURN_CODE_TYPE`. -/
inductive ReturnCode
  | noError
  | noAction
  | notAvailable
  | invalidParam
  | invalidConfig
  | invalidMode
  | timedOut
  deriving DecidableEq, Repr

/-- `PROCESS_STATE_TYPE`. -/
inductive ProcessState
  | dormant
  | ready
  | running
  | waiting
  | faulted
  deriving DecidableEq, Repr

/-- `OPERATING_MODE_TYPE`. -/
inductive OperatingMode
  | idle
  | coldStart
  | warmStart
  | normal
  deriving DecidableEq, Repr

/-- `QUEUING_DISCIPLINE_TYPE`. -/
inductive QueuingDiscipline
  | fifo
  | priority
  deriving DecidableEq, Repr

/-- `PORT_DIRECTION_TYPE`. -/
inductive PortDirection
  | source
  | destination
  deriving DecidableEq, Repr

/-- `VALIDITY_TYPE`. -/
inductive Validity
  | invalid
  | valid
  deriving DecidableEq, Repr

/-- `EMPTY_INDICATOR_TYPE`. -/
inductive EmptyIndicator
  | empty
  | occupied
  deriving DecidableEq, Repr

/-- `EVENT_STATE_TYPE`. -/
inductive EventState
  | down
  | up
  deriving DecidableEq, Repr

/-- `MUTEX_STATE_TYPE`. -/
inductive MutexState
  | available
  | owned
  deriving DecidableEq, Repr

/-- `ERROR_CODE_TYPE`. -/
inductive ErrorCode
  | deadlineMissed
  | applicationError
  | numericError
  | illegalRequest
  | stackOverflow
  | memoryViolation
  | hardwareFault
  | powerFail
  deriving DecidableEq, Repr

/-- `ERROR_ACTION_TYPE`. -/
inductive ErrorAction
  | ignore
  | processStop
  | processRestart
  | partitionStop
  | processReplenish
  deriving DecidableEq, Repr

/-- The row of a health-monitoring table a mode selects. -/
def OperatingMode.row : OperatingMode → Nat
  | .idle => 0
  | .coldStart => 1
  | .warmStart => 2
  | .normal => 3

/-- The column of a health-monitoring table an error code selects. -/
def ErrorCode.column : ErrorCode → Nat
  | .deadlineMissed => 0
  | .applicationError => 1
  | .numericError => 2
  | .illegalRequest => 3
  | .stackOverflow => 4
  | .memoryViolation => 5
  | .hardwareFault => 6
  | .powerFail => 7

/-! An enumeration parameter of a service is a C `int` the service compares with the enumerators,
so it arrives as an `Int` and is decoded here. -/

/-- The discipline a `QUEUING_DISCIPLINE` argument names, if it names one. -/
def QueuingDiscipline.ofInt? (x : Int) : Option QueuingDiscipline :=
  if x = 0 then some .fifo else if x = 1 then some .priority else none

/-- The direction a `PORT_DIRECTION` argument names, if it names one. -/
def PortDirection.ofInt? (x : Int) : Option PortDirection :=
  if x = 0 then some .source else if x = 1 then some .destination else none

/-- The mode an `OPERATING_MODE` argument names, if it names one. -/
def OperatingMode.ofInt? (x : Int) : Option OperatingMode :=
  if x = 0 then some .idle
  else if x = 1 then some .coldStart
  else if x = 2 then some .warmStart
  else if x = 3 then some .normal
  else none

/-! ## Machine integers -/

/-- A `uint32_t`. -/
def u32 (n : Nat) : Nat := n % 2 ^ 32

/-- `a - b` on `uint32_t`. -/
def u32Sub (a b : Nat) : Nat := u32 (a + (2 ^ 32 - u32 b))

/-- A signed integer converted to `uint32_t`. -/
def toU32 (x : Int) : Nat := (x % 2 ^ 32).toNat

/-- A signed time converted to `uint64_t`. -/
def u64 (x : Int) : Nat := (x % 2 ^ 64).toNat

/-- The value of a signed 32-bit computation. -/
def i32 (x : Int) : Int := Int.bmod x (2 ^ 32)

/-- The value of a signed 64-bit computation, a sum of two `SYSTEM_TIME_TYPE`. -/
def i64 (x : Int) : Int := Int.bmod x (2 ^ 64)

/-! ## Names and memory -/

/-- A NUL-terminated name, without its terminator. -/
abbrev Name := List Char

/-- `strncpy(dst, src, sizeof(dst) - 1); dst[sizeof(dst) - 1] = 0`. -/
def strncpyName (src : Name) : Name := src.take (maxNameLength - 1)

/-- What memory holds from a `MESSAGE_ADDR` on. -/
abbrev Area := Nat → UInt8

/-- The first `n` bytes of an area. -/
def Area.bytes (a : Area) (n : Nat) : List UInt8 := (List.range n).map a

/-- `memcpy(dst + base, src, n)`. -/
def memcpy (dst : Area) (base : Nat) (src : Area) (n : Nat) : Area :=
  fun a => if base ≤ a ∧ a < base + n then src (a - base) else dst a

/-- `time_overflow`, on the unsigned 64-bit sum it receives. -/
def timeOverflow (time : Nat) : Bool := decide (maxSystemTime < time % 2 ^ 64)

end UcxArinc
