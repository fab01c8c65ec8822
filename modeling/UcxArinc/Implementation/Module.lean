import UcxArinc.Implementation.StaticConf

set_option autoImplicit false

/-! # The module

The partitions of a module share the memory of the kernel: its clock, its scheduler and the channels. What
one partition leaves there the next one to execute finds. The services are atomic; the order in which the
partitions execute is left open. -/

namespace UcxArinc

/-- The largest value of `ucx_uptime()`: the 64-bit counter of `_read_us()`, divided by 1000. -/
def maxUptime : Nat := (2 ^ 64 - 1) / 1000

/-- The kernel changes the memory that it shares with a partition. -/
def Action.isKernel : Action → Bool
  | .kernel _ _ _ _ _ _ => true
  | _ => false

/-- The partitions and the one kernel memory. -/
structure CoreModule where
  partitions : Nat → Pcb
  krnl : Krnl

/-- What happens in a module. -/
inductive ModuleAction
  /-- partition `i` executes -/
  | partition (i : Nat) (e : Action)
  /-- time passes -/
  | time (uptime ticks windowsIdx majorFrameCount : Nat)

namespace CoreModule

/-- Partition `i`, with the kernel memory as it is now. -/
def partition (m : CoreModule) (i : Nat) : Pcb := { m.partitions i with krnl := m.krnl }

/-- One step of a module. -/
def step (m : CoreModule) : ModuleAction → Option CoreModule
  | .partition i e =>
    if e.isKernel then none
    else ((m.partition i).step e).map fun s =>
      { partitions := Function.update m.partitions i s, krnl := s.krnl }
  | .time uptime ticks windowsIdx majorFrameCount =>
    if m.krnl.uptime ≤ uptime ∧ uptime ≤ maxUptime then
      some { m with krnl := { m.krnl with
        uptime := uptime
        ticks := ticks
        moduleScheduler := { m.krnl.moduleScheduler with
          windowsIdx := windowsIdx
          majorFrameCount := majorFrameCount } } }
    else none

end CoreModule

/-! ## Boot -/

/-- What `partition_init` is given for a partition. -/
structure PartitionBoot where
  period : Int
  identifier : Int
  conf : PartitionConf
  maxErrors : Nat
  memory : Nat → Process
  lastTick : Nat

/-- The module when every `partition_OS` enters its loop. -/
def moduleInit (krnl : Krnl) (table : Nat → PartitionBoot) : CoreModule where
  partitions i := (partitionInit (table i).period (table i).identifier (table i).conf (table i).maxErrors krnl
    (table i).memory (table i).lastTick).startPartitionOs
  krnl := krnl

/-- Two partitions in the default configuration; the others have the identifier of no window. -/
def defaultModule : CoreModule :=
  moduleInit defaultKrnl fun i => ⟨50, i, defaultPartitionConf, 10, fun _ => zeroProcess, 0⟩

end UcxArinc
