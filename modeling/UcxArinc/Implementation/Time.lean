import UcxArinc.Implementation.ModuleScheduler
import UcxArinc.Implementation.Partition

set_option autoImplicit false

/-! # Time

`arinc/arinc_time.c`: what a new tick does to the processes, and the services that wait for time. -/

namespace UcxArinc

namespace Pcb

/-! ## The tick -/

/-- `check_and_release_periodic_waiting_processes`, on the process of the node it visits. -/
def checkAndReleasePeriodicWaitingProcesses (uptime : Nat) (x : Process) : Process :=
  if x.processState = .waiting ∧
      (x.attributes.period ≠ infiniteTimeValue ∨
        (x.savedInitDelay ≠ 0 ∧ x.attributes.period = infiniteTimeValue)) ∧
      u64 x.releasePointTime ≤ uptime then
    if x.savedInitDelay ≠ 0 ∧ x.attributes.period = infiniteTimeValue then
      { x with processState := .ready, releasePointTime := 0, savedInitDelay := 0 }
    else { x with processState := .ready }
  else x

/-- `check_timeouts`, on the process of the node it visits. The line that names
    `remove_process_from_waiting_queue` there declares the function and does not call it. -/
def checkTimeouts (uptime : Nat) (x : Process) : Process :=
  if x.timeCounter ≠ 0 ∧ x.timeCounter ≤ uptime ∧ x.timeCounter ≠ infiniteTimeValue then
    { x with isSuspended := false, timeCounter := 0, processState := .ready }
  else x

/-- `arinc_time_update_partition`; `check_deadlines`, its third pass, changes nothing. -/
def arincTimeUpdatePartition (s : Pcb) : Pcb :=
  (s.forEachProcess (checkAndReleasePeriodicWaitingProcesses s.krnl.uptime)).forEachProcess
    (checkTimeouts s.krnl.uptime)

/-! ## Release points -/

/-- The window starts a period of the partition's processes. -/
def startsPeriod (identifier : Int) (w : WindowPartition) : Bool :=
  decide (identifier = w.id) && w.isPeriodicProcessesStart

/-- `arinc_time_find_first_release_point`: the next window of the partition that starts a period,
    in this frame or in the next. -/
def arincTimeFindFirstReleasePoint (s : Pcb) : Int :=
  let ms := s.krnl.moduleScheduler
  let frame := ticksToMs s.krnl.fTimer ms.majorFrameTick
  let start := fun (w : WindowPartition) => ticksToMs s.krnl.fTimer w.startTick
  match (ms.windowsPartition.drop ms.windowsIdx).find? (startsPeriod s.status.identifier) with
  | some w => u32 (ms.majorFrameCount * frame + start w)
  | none =>
    match (ms.windowsPartition.take ms.windowsIdx).find? (startsPeriod s.status.identifier) with
    | some w => u32 ((ms.majorFrameCount + 1) * frame + start w)
    | none => s.krnl.noReleasePoint

/-! ## Services -/

/-- `TIMED_WAIT`. -/
def timedWait (s : Pcb) (delayTime : Int) : Outcome :=
  s.withCurrent fun node =>
    let current := node.data
    if s.cannotBlock current then s.ret .invalidMode
    else if s.timeOutInvalid delayTime then s.ret .invalidParam
    else if delayTime = infiniteTimeValue then s.ret .invalidParam
    else if delayTime = 0 then
      let s := s.modProc current fun x => { x with processState := .ready }
      let (s, newNode) := (s.listRemove node).listPushback current
      (s.setCurrent (some newNode)).yieldToPartition current .timedWait
    else
      (s.modProc current fun x => { x with
        processState := .waiting
        timeCounter := s.fromNow delayTime }).yieldToPartition current .timedWait

/-- `PERIODIC_WAIT`. -/
def periodicWait (s : Pcb) : Outcome :=
  s.withCurrent fun node =>
    let current := node.data
    let x := s.proc current
    let timeCapacity :=
      if x.attributes.timeCapacity = infiniteTimeValue then 0 else x.attributes.timeCapacity
    if s.cannotBlock current then s.ret .invalidMode
    else if x.attributes.period = infiniteTimeValue then s.ret .invalidMode
    else if timeOverflow (u64 (x.attributes.period + x.releasePointTime + timeCapacity)) then
      s.ret .invalidParam
    else
      let releasePointTime := i64 (x.releasePointTime + x.attributes.period)
      (s.modProc current fun x => updateProcessDeadline releasePointTime { x with
        processState := .waiting
        releasePointTime := releasePointTime }).yieldToPartition current .periodicWait

/-- `REPLENISH`. -/
def replenish (s : Pcb) (budgetTime : Int) : Outcome :=
  s.withCurrent fun node =>
    let current := node.data
    let x := s.proc current
    if s.errorHandlerProcess = some current ∧ s.status.operatingMode ≠ .normal then s.ret .noAction
    else if s.timeOutInvalid budgetTime then s.ret .invalidParam
    else if x.attributes.period ≠ infiniteTimeValue ∧
        (budgetTime = infiniteTimeValue ∨ x.releasePointTime < s.fromNow budgetTime) then
      s.ret .invalidMode
    else
      let deadlineTime :=
        if x.attributes.timeCapacity = infiniteTimeValue then infiniteTimeValue
        else if x.attributes.period = infiniteTimeValue ∧ budgetTime = infiniteTimeValue then
          infiniteTimeValue
        else s.fromNow budgetTime
      (s.modProc current fun x => { x with deadlineTime := deadlineTime }).ret .noError

end Pcb

end UcxArinc
