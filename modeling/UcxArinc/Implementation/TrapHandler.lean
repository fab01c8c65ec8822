import UcxArinc.Implementation.HealthMonitor

set_option autoImplicit false

/-! # The trap handler

`_irq_handler` of `arch/riscv/riscv32-qemu/hal.c`, where it does not serve the timer, and the cells of the
health-monitoring tables that `kernel/hm.c` reads for a fault. -/

namespace UcxArinc

/-- The error `_irq_handler` raises for the cause of a trap. -/
def trapError (mcause : Nat) : ErrorCode :=
  match mcause with
  | 0 | 2 => .illegalRequest
  | 1 | 3 => .numericError
  | 4 | 5 | 6 | 7 => .memoryViolation
  | _ => .hardwareFault

/-- The length `_irq_handler` passes with its message. -/
def trapMessageLength : Int := 27

/-- A cell of `partition_hm_table`, with its row, or of the one row of `hm_table_module`. -/
inductive HmCell
  | partition (row column : Nat)
  | module (column : Nat)

/-- The cell is one of `partition_hm_table[4][4]`, or of `hm_table_module[1][4]`. -/
def HmCell.InTable : HmCell → Prop
  | .partition row column => row < 4 ∧ column < 4
  | .module column => column < 4

namespace Pcb

/-- What `_irq_handler` does for a fault while the partition is the current one. -/
def handleFault (s : Pcb) (mcause : Nat) (messageAddr : Area) : Outcome :=
  s.hmRaiseError (trapError mcause) messageAddr trapMessageLength

/-- The action `hm_raise_partition_error` finds for an error. -/
def partitionAction (s : Pcb) (errorCode : ErrorCode) : ErrorAction :=
  s.conf.partitionHmTable (4 * s.status.operatingMode.row + errorCode.column)

/-- The cells `hm_raise_partition_error` reads: where its `default` goes on to `hm_raise_module_error`, the
    module's too. -/
def partitionCells (s : Pcb) (errorCode : ErrorCode) : List HmCell :=
  .partition s.status.operatingMode.row errorCode.column ::
    match s.partitionAction errorCode with
    | .processStop => [.module errorCode.column]
    | _ => []

/-- The cells `hm_raise_error` reads: none where it hands the error to the error handler. -/
def faultCells (s : Pcb) (errorCode : ErrorCode) : List HmCell :=
  match s.processCurrent with
  | none => []
  | some node =>
    match s.errorHandlerProcess with
    | none => s.partitionCells errorCode
    | some errorProcess => if node.data = errorProcess then s.partitionCells errorCode else []

end Pcb

end UcxArinc
