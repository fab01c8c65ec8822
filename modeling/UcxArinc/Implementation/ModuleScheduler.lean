import UcxArinc.Implementation.Records
import UcxArinc.Library.CyclicPlan
import UcxArinc.Library.Transition

set_option autoImplicit false

/-! # The module scheduler

`arinc/module_scheduler.c`, with `krnl_partition_switch` of `kernel/partition.c` and the loop of
`init/main.c` that calls it. All times of the scheduler are `uint32_t`, so its arithmetic is done
modulo `2 ^ 32`. -/

namespace UcxArinc

/-- `MS_TO_TICKS`, with the 32-bit `unsigned long` of the target. -/
def msToTicks (fTimer ms : Nat) : Nat := u32 (u32 ms * u32 fTimer) / 1000

/-- `TICKS_TO_MS`. -/
def ticksToMs (fTimer ticks : Nat) : Nat := u32 (ticks * 1000 / fTimer)

/-- What the scheduler reads of a `pcb_s` of `kcb->partitions`. -/
structure PartitionEntry where
  identifier : Int
  operatingMode : OperatingMode
  deriving DecidableEq, Repr

/-- The fields of `kcb_s` the scheduler uses. A partition is found by identifier, so
    `partition_current` is the identifier of the partition it points to. -/
structure Kcb where
  fTimer : Nat
  moduleScheduler : Mscb
  partitions : List PartitionEntry
  partitionCurrent : Option Int
  deriving DecidableEq, Repr

namespace Kcb

/-- `list_foreach(kcb->partitions, find_partition, identifier)`. -/
def findPartition (s : Kcb) (identifier : Int) : Option PartitionEntry :=
  s.partitions.find? fun p => decide (p.identifier = identifier)

/-- `krnl_partition_switch`; `none` is `krnl_panic`. -/
def krnlPartitionSwitch (s : Kcb) (identifier : Int) : Option (Kcb × Int) :=
  if identifier = idlePartitionId then
    some ({ s with partitionCurrent := none }, idlePartitionId)
  else
    match s.findPartition identifier with
    | none => none
    | some partition =>
      if partition.operatingMode = .idle then
        some ({ s with partitionCurrent := none }, idlePartitionId)
      else
        some ({ s with partitionCurrent := some identifier }, identifier)

/-- `signal_idle_current_partition`. -/
def signalIdleCurrentPartition (s : Kcb) : Kcb :=
  { s with moduleScheduler := { s.moduleScheduler with idleCurrentPartition := true } }

/-- `*windows_idx = i`. -/
def setWindowsIdx (s : Kcb) (i : Nat) : Kcb :=
  { s with moduleScheduler := { s.moduleScheduler with windowsIdx := i } }

/-- `module_scheduler_init`. -/
def moduleSchedulerInit (majorFrameTick : Nat) (windowsPartition : List WindowPartition) : Mscb where
  majorFrameTick := majorFrameTick
  windowsPartition := windowsPartition
  windowsIdx := 0
  idleCurrentPartition := false
  majorFrameCount := 0

/-- `DEFAULT_WINDOWS`. -/
def defaultWindows (fTimer : Nat) : List WindowPartition :=
  [⟨1, msToTicks fTimer 0, msToTicks fTimer 40, true⟩,
   ⟨2, msToTicks fTimer 40, msToTicks fTimer 20, true⟩,
   ⟨1, msToTicks fTimer 60, msToTicks fTimer 20, false⟩,
   ⟨2, msToTicks fTimer 80, msToTicks fTimer 20, false⟩]

/-- The module of the default configuration, both partitions in `COLD_START`. -/
def defaultKcb (fTimer : Nat) : Kcb where
  fTimer := fTimer
  moduleScheduler := moduleSchedulerInit (msToTicks fTimer 100) (defaultWindows fTimer)
  partitions := [⟨1, .coldStart⟩, ⟨2, .coldStart⟩]
  partitionCurrent := none

/-- `arinc_start_scheduling`: it follows the current partition, which must exist. -/
def arincStartScheduling (s : Kcb) : Option Kcb :=
  match s.moduleScheduler.windowsPartition with
  | [] => none
  | first :: _ =>
    match s.krnlPartitionSwitch first.id with
    | none => none
    | some (s, _) =>
      if s.partitionCurrent = none then none else some (s.setWindowsIdx 0)

/-- The idle request the scheduler serves first. -/
def serveIdleRequest (s : Kcb) : Option Kcb :=
  if s.moduleScheduler.idleCurrentPartition then
    (s.krnlPartitionSwitch idlePartitionId).map fun r =>
      { r.1 with moduleScheduler := { r.1.moduleScheduler with idleCurrentPartition := false } }
  else some s

/-- `position_in_frame` at `current_tick`. -/
def positionInFrame (s : Kcb) (currentTick : Nat) : Nat :=
  u32Sub currentTick (s.moduleScheduler.majorFrameCount * s.moduleScheduler.majorFrameTick)

/-- `partition_scheduler` when `ucx_uptime()` is `uptime`. `none` is `krnl_panic` or a window read
    outside the table. -/
def partitionScheduler (s : Kcb) (uptime : Nat) : Option (Kcb × Int) :=
  let currentTime := u32 uptime
  let currentTick := msToTicks s.fTimer currentTime
  let ms := s.moduleScheduler
  let positionInFrame := s.positionInFrame currentTick
  match ms.windowsPartition[ms.windowsIdx]? with
  | none => none
  | some window =>
    let partitionEndTick := u32 (window.startTick + window.durationTick)
    let partitionId := if ms.idleCurrentPartition then idlePartitionId else window.id
    match s.serveIdleRequest with
    | none => none
    | some s =>
      if ms.majorFrameTick ≤ positionInFrame then
        match ms.windowsPartition[0]? with
        | none => none
        | some first =>
          let s := s.setWindowsIdx 0
          { s with moduleScheduler := { s.moduleScheduler with
              majorFrameCount := u32 (ms.majorFrameCount + 1) } }.krnlPartitionSwitch first.id
      else if partitionEndTick ≤ positionInFrame then
        if ms.windowsIdx = ms.windowsPartition.length - 1 then
          s.krnlPartitionSwitch idlePartitionId
        else
          match ms.windowsPartition[ms.windowsIdx + 1]? with
          | none => none
          | some next =>
            -- the gap between two windows is idle
            if positionInFrame < next.startTick then s.krnlPartitionSwitch idlePartitionId
            else
              ((s.setWindowsIdx (ms.windowsIdx + 1)).krnlPartitionSwitch next.id).map fun r =>
                (r.1, next.id)
      else some (s, partitionId)

/-- `SET_PARTITION_MODE` as the module sees it: the current partition, unless it is `IDLE` (then it
    only waits), changes its mode. Refused modes leave everything as it is. -/
def setPartitionMode (s : Kcb) (operatingMode : OperatingMode) : Option Kcb :=
  match s.partitionCurrent.bind s.findPartition with
  | none => none
  | some partition =>
    if partition.operatingMode = .idle then none
    else if operatingMode = .normal ∧ partition.operatingMode = .normal then some s
    else if operatingMode = .warmStart ∧ partition.operatingMode = .coldStart then some s
    else
      let s := { s with partitions := s.partitions.map fun p =>
        if p.identifier = partition.identifier then { p with operatingMode := operatingMode }
        else p }
      if operatingMode = .idle then some s.signalIdleCurrentPartition else some s

/-- What happens to the module: an interrupt whose handler calls `rt_sched` at some uptime, or a
    mode change by the running partition. -/
inductive Action
  | schedule (uptime : Nat)
  | setPartitionMode (operatingMode : OperatingMode)
  deriving DecidableEq, Repr

/-- One action of the module. -/
def step (s : Kcb) : Action → Option Kcb
  | .schedule uptime => (s.partitionScheduler uptime).map Prod.fst
  | .setPartitionMode operatingMode => s.setPartitionMode operatingMode

/-! ## Call times -/

/-- The tick of an uptime, computed without overflow. -/
def tickAt (fTimer uptime : Nat) : Nat := uptime * fTimer / 1000

/-- The uptimes at which a run calls the scheduler. -/
def callUptimes : List Action → List Nat
  | [] => []
  | .schedule uptime :: es => uptime :: callUptimes es
  | .setPartitionMode _ :: es => callUptimes es

/-- The calls begin in the first window of frame 0, at increasing ticks no further apart than the
    shortest window. -/
structure PacedCalls (s : Kcb) (uptimes : List Nat) : Prop where
  first : ∀ u ∈ uptimes.head?, ∀ w ∈ s.moduleScheduler.windowsPartition.head?,
    tickAt s.fTimer u < w.durationTick
  paced : (uptimes.map (tickAt s.fTimer)).IsChain fun t t' =>
    t < t' ∧ ∀ w ∈ s.moduleScheduler.windowsPartition, t' ≤ t + w.durationTick

/-- The calls begin in the first window of frame 0 and come once every tick. -/
structure OneCallPerTick (s : Kcb) (uptimes : List Nat) : Prop where
  first : ∀ u ∈ uptimes.head?, ∀ w ∈ s.moduleScheduler.windowsPartition.head?,
    tickAt s.fTimer u < w.durationTick
  perTick : (uptimes.map (tickAt s.fTimer)).IsChain fun t t' => t' = t + 1

/-- No call's `MS_TO_TICKS` product leaves 32 bits. -/
def NoOverflow (s : Kcb) (uptimes : List Nat) : Prop := ∀ u ∈ uptimes, u * s.fTimer < 2 ^ 32

instance (s : Kcb) (uptimes : List Nat) : Decidable (s.NoOverflow uptimes) :=
  inferInstanceAs (Decidable (∀ u ∈ uptimes, _))

/-! ## The window plan -/

/-- The window as a slot of the frame. -/
def slotOf (w : WindowPartition) : Slot Int := ⟨w.id, w.startTick, w.durationTick⟩

/-- The table of the configuration: windows sorted by start, pairwise disjoint, of positive
    duration, inside the major frame, the first one at tick 0. -/
structure WellFormedPlan (ms : Mscb) : Prop where
  sorted : ms.windowsPartition.Pairwise fun a b => a.startTick ≤ b.startTick
  disjoint : ms.windowsPartition.Pairwise fun a b =>
    a.startTick + a.durationTick ≤ b.startTick ∨ b.startTick + b.durationTick ≤ a.startTick
  positive : ∀ w ∈ ms.windowsPartition, 0 < w.durationTick
  inFrame : ∀ w ∈ ms.windowsPartition, w.startTick + w.durationTick ≤ ms.majorFrameTick
  zero_lt_length : 0 < ms.windowsPartition.length
  startsAtZero : ms.windowsPartition[0].startTick = 0
  frame_lt : ms.majorFrameTick < 2 ^ 32

/-- Every window's partition exists; `IDLE_PARTITION_ID` names no partition. -/
def PartitionsExist (s : Kcb) : Prop :=
  ∀ w ∈ s.moduleScheduler.windowsPartition,
    w.id ≠ idlePartitionId ∧ ∃ p ∈ s.partitions, p.identifier = w.id

instance (s : Kcb) : Decidable s.PartitionsExist :=
  inferInstanceAs (Decidable (∀ w ∈ s.moduleScheduler.windowsPartition, _ ∧ ∃ p ∈ s.partitions, _))

/-- The owner of the window that contains a position of the frame. -/
def windowOwner (s : Kcb) (pos : Nat) : Option Int :=
  (s.moduleScheduler.windowsPartition.find? fun w => decide ((slotOf w).Contains pos)).map
    WindowPartition.id

/-- The partition exists and is in `IDLE` mode. -/
def IsIdle (s : Kcb) (identifier : Int) : Prop :=
  (s.findPartition identifier).map PartitionEntry.operatingMode = some .idle

instance (s : Kcb) (identifier : Int) : Decidable (s.IsIdle identifier) :=
  inferInstanceAs (Decidable (_ = _))

/-- The specification of the schedule: the partition whose window contains the position of tick `t`
    in its frame, unless it is in `IDLE` mode; nobody in a gap. -/
def plannedPartition (s : Kcb) (t : Nat) : Option Int :=
  match s.windowOwner (t % s.moduleScheduler.majorFrameTick) with
  | none => none
  | some id => if s.IsIdle id then none else some id

end Kcb

end UcxArinc
