import UcxArinc.Implementation.TrapHandler
import UcxArinc.Implementation.StaticConf
import UcxArinc.Proofs.Primitives

set_option autoImplicit false

/-! # Faults

What handling a processor fault touches. It is confined when a process has failed and its error handler
takes the error; an error that goes to the partition level is looked up in tables of four columns, while
the trap handler raises codes up to `HARDWARE_FAULT`. -/

namespace UcxArinc

/-- The trap handler's codes that have a column. -/
theorem trapError_column_lt (mcause : Nat) : (trapError mcause).column < 4 ↔ mcause < 4 := by
  unfold trapError
  split <;> simp_all [ErrorCode.column]
  omega

theorem OperatingMode.row_lt (mode : OperatingMode) : mode.row < 4 := by
  cases mode <;> decide

namespace Pcb

variable {s : Pcb} {mcause : Nat} {messageAddr : Area}

/-! ## Confined and covered -/

/-- The handling of a fault follows only valid references and reads only cells of the tables, touches no
    process but the failed one and the error handler, and leaves the failed one `FAULTED` unless the
    configured action is `IGNORE`. -/
structure Confined (s : Pcb) (mcause : Nat) (messageAddr : Area) : Prop where
  reference : s.processCurrent ≠ none
  cells : ∀ cell ∈ s.faultCells (trapError mcause), cell.InTable
  others : ∀ p, (∀ node, s.processCurrent = some node → node.data ≠ p) →
    s.errorHandlerProcess ≠ some p →
    ((s.handleFault mcause messageAddr).1.proc p).processState = (s.proc p).processState
  faulted : ∀ node, s.processCurrent = some node →
    ((s.handleFault mcause messageAddr).1.proc node.data).processState = .faulted
      ∨ s.partitionAction (trapError mcause) = .ignore

/-- The error of a process goes to an error handler. -/
def HandlerTakes (s : Pcb) (node : Node) : Prop :=
  ∃ errorProcess, s.errorHandlerProcess = some errorProcess ∧ node.data ≠ errorProcess

/-- `IGNORE` would ready a process found under the identifier of the failed one: only that process, the
    error handler or one that is `READY` anyway. -/
def IgnoresOwn (s : Pcb) (node : Node) : Prop :=
  ∀ found, s.isProcessIdExisted (s.proc node.data).processId = some found → found.data = node.data
    ∨ s.errorHandlerProcess = some found.data ∨ (s.proc found.data).processState = .ready

/-- A process has failed, and an error handler takes its error or the tables have a column for it. -/
def Covered (s : Pcb) (mcause : Nat) : Prop :=
  ∃ node, s.processCurrent = some node ∧ (s.HandlerTakes node
    ∨ mcause < 4 ∧ (s.partitionAction (trapError mcause) = .ignore → s.IgnoresOwn node))

/-! ## Where the error goes -/

/-- The state after the failed process has been marked. -/
def markFaulted (s : Pcb) (node : Node) : Pcb :=
  s.modProc node.data fun x => { x with processState := .faulted }

theorem markFaulted_id (node : Node) (p : Nat) :
    ((s.markFaulted node).proc p).processId = (s.proc p).processId := by
  rw [markFaulted, modProc_proc]
  split
  · next heq => rw [heq]
  · rfl

theorem markFaulted_self (node : Node) : ((s.markFaulted node).proc node.data).processState = .faulted := by
  rw [markFaulted, modProc_proc_self]

theorem markFaulted_of_ne {node : Node} {p : Nat} (h : node.data ≠ p) :
    (s.markFaulted node).proc p = s.proc p := modProc_proc_of_ne (Ne.symm h) _ _

/-- Only the error handler is woken. -/
theorem wakeErrorHandler_proc_of_ne {errorProcess p : Nat} (h : p ≠ errorProcess) :
    ((s.wakeErrorHandler errorProcess).getD s).proc p = s.proc p := by
  unfold wakeErrorHandler
  split
  · rw [Option.getD_some]
    exact modProc_proc_of_ne h _ _
  · rfl

/-- The error handler takes the error: every other process is as the marking left it. -/
theorem handleFault_taken {node : Node} (hnode : s.processCurrent = some node) {errorProcess : Nat}
    (hhandler : s.errorHandlerProcess = some errorProcess) (hne : node.data ≠ errorProcess) {p : Nat}
    (hp : p ≠ errorProcess) :
    (s.handleFault mcause messageAddr).1.proc p = (s.markFaulted node).proc p := by
  unfold handleFault hmRaiseError withCurrent
  rw [hnode]
  dsimp only
  have hhandler' : (s.markFaulted node).errorHandlerProcess = some errorProcess := hhandler
  rw [show (s.modProc node.data fun x => { x with processState := .faulted }) = s.markFaulted node from rfl,
    hhandler']
  dsimp only
  rw [if_neg hne]
  exact wakeErrorHandler_proc_of_ne hp

/-- The partition level readies the process it finds when it ignores the error, and nothing else. -/
theorem hmRaisePartitionError_cases (t : Pcb) (error : ErrorStatus) :
    (t.hmRaisePartitionError error = t ∧ (t.partitionAction error.errorCode = .ignore →
      t.isProcessIdExisted error.failedProcessId = none)) ∨
    ∃ found, t.partitionAction error.errorCode = .ignore
      ∧ t.isProcessIdExisted error.failedProcessId = some found
      ∧ t.hmRaisePartitionError error
        = t.modProc found.data fun x => { x with processState := .ready } := by
  unfold hmRaisePartitionError
  rw [show t.conf.partitionHmTable (4 * t.status.operatingMode.row + error.errorCode.column)
    = t.partitionAction error.errorCode from rfl]
  cases haction : t.partitionAction error.errorCode with
  | ignore =>
      cases hfound : t.isProcessIdExisted error.failedProcessId with
      | none => exact Or.inl ⟨rfl, fun _ => rfl⟩
      | some found => exact Or.inr ⟨found, rfl, rfl, rfl⟩
  | processStop | processRestart | partitionStop | processReplenish =>
      exact Or.inl ⟨rfl, fun h => (nomatch h)⟩

/-- The marking keeps identifiers. -/
theorem markFaulted_found (node : Node) (id : Int) :
    (s.markFaulted node).isProcessIdExisted id = s.isProcessIdExisted id := by
  unfold isProcessIdExisted
  simp only [markFaulted_id]
  rfl

/-- Nobody takes the error: it goes to the partition level, which may ready the process it finds. -/
theorem handleFault_passed {node : Node} (hnode : s.processCurrent = some node)
    (hpassed : ¬ s.HandlerTakes node) (mcause : Nat) (messageAddr : Area) :
    ((∀ p, (s.handleFault mcause messageAddr).1.proc p = (s.markFaulted node).proc p)
      ∧ (s.partitionAction (trapError mcause) = .ignore →
        s.isProcessIdExisted (s.proc node.data).processId = none)) ∨
    ∃ found, s.partitionAction (trapError mcause) = .ignore
      ∧ s.isProcessIdExisted (s.proc node.data).processId = some found
      ∧ ∀ p, (s.handleFault mcause messageAddr).1.proc p
        = ((s.markFaulted node).modProc found.data fun x => { x with processState := .ready }).proc p := by
  -- the error as it reaches the partition level
  obtain ⟨error, hcode, hid, heq⟩ : ∃ error : ErrorStatus, error.errorCode = trapError mcause
      ∧ error.failedProcessId = (s.proc node.data).processId
      ∧ (s.handleFault mcause messageAddr).1
        = ((s.markFaulted node).hmRaisePartitionError error).toPartitionOs := by
    unfold handleFault hmRaiseError withCurrent
    rw [hnode]
    dsimp only
    rw [show (s.modProc node.data fun x => { x with processState := .faulted }) = s.markFaulted node from rfl]
    refine ⟨⟨((s.markFaulted node).proc node.data).processId, trapError mcause, trapMessageLength,
      messageAddr.bytes trapMessageLength.toNat⟩, rfl, markFaulted_id node _, ?_⟩
    have hhandler' : (s.markFaulted node).errorHandlerProcess = s.errorHandlerProcess := rfl
    rw [hhandler']
    cases hhandler : s.errorHandlerProcess with
    | none => rfl
    | some errorProcess =>
        have heq : node.data = errorProcess := by
          by_contra hne
          exact hpassed ⟨errorProcess, hhandler, hne⟩
        dsimp only
        rw [if_pos heq]
  rw [heq, ← hcode, ← hid, ← markFaulted_found node]
  rcases hmRaisePartitionError_cases (s.markFaulted node) error with ⟨hsame, hnone⟩ | ⟨found, haction, hfound, hready⟩
  · exact Or.inl ⟨fun p => by rw [hsame]; rfl, hnone⟩
  · exact Or.inr ⟨found, haction, hfound, fun p => by rw [hready]; rfl⟩

/-! ## Which cells are read -/

theorem partitionCells_inTable (errorCode : ErrorCode) :
    (∀ cell ∈ s.partitionCells errorCode, cell.InTable) ↔ errorCode.column < 4 := by
  constructor
  · intro h
    exact (h _ List.mem_cons_self).2
  · intro h cell hcell
    rcases List.mem_cons.mp hcell with rfl | hcell
    · exact ⟨OperatingMode.row_lt _, h⟩
    · cases haction : s.partitionAction errorCode with
      | processStop =>
          rw [haction] at hcell
          obtain rfl := List.mem_singleton.mp hcell
          exact h
      | ignore | processRestart | partitionStop | processReplenish =>
          rw [haction] at hcell
          exact absurd hcell List.not_mem_nil

theorem faultCells_taken {node : Node} (hnode : s.processCurrent = some node)
    (htakes : s.HandlerTakes node) (errorCode : ErrorCode) : s.faultCells errorCode = [] := by
  obtain ⟨errorProcess, hhandler, hne⟩ := htakes
  unfold faultCells
  rw [hnode]
  dsimp only
  rw [hhandler]
  exact if_neg hne

theorem faultCells_passed {node : Node} (hnode : s.processCurrent = some node)
    (hpassed : ¬ s.HandlerTakes node) (errorCode : ErrorCode) :
    s.faultCells errorCode = s.partitionCells errorCode := by
  unfold faultCells
  rw [hnode]
  dsimp only
  cases hhandler : s.errorHandlerProcess with
  | none => rfl
  | some errorProcess =>
      refine if_pos ?_
      by_contra hne
      exact hpassed ⟨errorProcess, hhandler, hne⟩

/-! ## Every fault -/

/-- A fault the error handler takes is confined, whatever its code. -/
theorem confined_taken {node : Node} (hnode : s.processCurrent = some node)
    (htakes : s.HandlerTakes node) : Confined s mcause messageAddr := by
  obtain ⟨errorProcess, hhandler, hne⟩ := htakes
  exact {
    reference := by rw [hnode]; exact Option.some_ne_none _
    cells := by
      rw [faultCells_taken hnode ⟨errorProcess, hhandler, hne⟩]
      exact fun cell hcell => absurd hcell List.not_mem_nil
    others := fun p hcurrent herror => by
      have hp : p ≠ errorProcess := fun heq => herror (heq ▸ hhandler)
      rw [handleFault_taken hnode hhandler hne hp, markFaulted_of_ne (hcurrent node hnode)]
    faulted := fun node' hnode' => by
      obtain rfl := Option.some.inj (hnode.symm.trans hnode')
      rw [handleFault_taken hnode hhandler hne hne]
      exact Or.inl (markFaulted_self node) }

/-- A fault that reaches the partition level. -/
theorem confined_passed {node : Node} (hnode : s.processCurrent = some node)
    (hpassed : ¬ s.HandlerTakes node) : Confined s mcause messageAddr ↔
      mcause < 4 ∧ (s.partitionAction (trapError mcause) = .ignore → s.IgnoresOwn node) := by
  have hcells : (∀ cell ∈ s.faultCells (trapError mcause), cell.InTable) ↔ mcause < 4 := by
    rw [faultCells_passed hnode hpassed, partitionCells_inTable, trapError_column_lt]
  have hpassed' := handleFault_passed hnode hpassed mcause messageAddr
  constructor
  · intro h
    refine ⟨hcells.mp h.cells, fun haction found hfound => ?_⟩
    by_cases hown : found.data = node.data
    · exact Or.inl hown
    by_cases hhandler : s.errorHandlerProcess = some found.data
    · exact Or.inr (Or.inl hhandler)
    -- the process found is neither, so its state has stayed, and it is the one made `READY`
    have hsame := h.others found.data (fun node' hnode' heq => hown (by
      rw [← Option.some.inj (hnode.symm.trans hnode')] at heq
      exact heq.symm)) hhandler
    rcases hpassed' with ⟨-, hnone⟩ | ⟨found', -, hfound', hproc⟩
    · rw [hnone haction] at hfound
      cases hfound
    · rw [hfound] at hfound'
      obtain rfl := Option.some.inj hfound'
      rw [hproc, modProc_proc_self] at hsame
      exact Or.inr (Or.inr hsame.symm)
  · rintro ⟨hlt, howns⟩
    refine ⟨by rw [hnode]; exact Option.some_ne_none _, hcells.mpr hlt, fun p hcurrent herror => ?_,
      fun node' hnode' => ?_⟩
    · have hne : node.data ≠ p := hcurrent node hnode
      rcases hpassed' with ⟨hproc, -⟩ | ⟨found, haction, hfound, hproc⟩
      · rw [hproc, markFaulted_of_ne hne]
      · rw [hproc]
        by_cases heq : p = found.data
        · subst heq
          rw [modProc_proc_self]
          rcases howns haction found hfound with hown | hhandler | hready
          · exact absurd hown.symm hne
          · exact absurd hhandler herror
          · exact hready.symm
        · rw [modProc_proc_of_ne heq, markFaulted_of_ne hne]
    · obtain rfl := Option.some.inj (hnode.symm.trans hnode')
      rcases hpassed' with ⟨hproc, -⟩ | ⟨found, haction, -, -⟩
      · rw [hproc]
        exact Or.inl (markFaulted_self node)
      · exact Or.inr haction

/-- In every state, a fault is confined exactly if a process has failed and an error handler takes its
    error or the tables have a column for it. -/
theorem confined_iff_covered (s : Pcb) (mcause : Nat) (messageAddr : Area) :
    Confined s mcause messageAddr ↔ s.Covered mcause := by
  cases hnode : s.processCurrent with
  | none =>
      constructor
      · intro h
        exact absurd hnode h.reference
      · rintro ⟨node, hnode', -⟩
        rw [hnode] at hnode'
        cases hnode'
  | some node =>
      have hcovered : s.Covered mcause ↔ (s.HandlerTakes node
          ∨ mcause < 4 ∧ (s.partitionAction (trapError mcause) = .ignore → s.IgnoresOwn node)) := by
        constructor
        · rintro ⟨node', hnode', h⟩
          obtain rfl := Option.some.inj (hnode.symm.trans hnode')
          exact h
        · exact fun h => ⟨node, hnode, h⟩
      rw [hcovered]
      by_cases htakes : s.HandlerTakes node
      · exact iff_of_true (confined_taken hnode htakes) (Or.inl htakes)
      · rw [confined_passed hnode htakes]
        exact (or_iff_right htakes).symm

/-- A store fault of the initialisation code: there is no failed process. -/
theorem initialisation_fault_not_confined : ¬ ∀ (es : List Action) (s : Pcb),
    Transition.run step (defaultPartition 1) es = some s →
    ∀ mcause messageAddr, Confined s mcause messageAddr := by
  intro h
  have hconfined := h [.loop] { defaultPartition 1 with ctl := .mainProcess } rfl 7 fun _ => 0
  exact hconfined.reference rfl

end Pcb

end UcxArinc
