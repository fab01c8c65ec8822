import UcxArinc.Implementation.Module
import UcxArinc.Proofs.Stores

set_option autoImplicit false

/-! # Runs of a module

A step of a module is a step of one of its partitions, and the others see only that the kernel's memory has
changed. What every partition keeps whatever that memory holds, all partitions keep over every run. -/

namespace UcxArinc

/-! ## Ports of the routing table -/

namespace Pcb

variable {A : Permit} {s s' : Pcb}

/-- The ports created are rows of the routing table. -/
structure PortsFromTable (table : List PortMapping) (s : Pcb) : Prop where
  systemPortTable : s.krnl.systemPortTable = table
  sampling : ∀ i, i < s.res.samplingPortCount → ∃ row ∈ table, SamplingPortOf row (s.res.samplingPorts i)
  queuing : ∀ i, i < s.res.queuingPortCount → ∃ row ∈ table, QueuingPortOf row (s.res.queuingPorts i)

theorem PortsFromTable.congr {table : List PortMapping} (h : PortsFromTable table s)
    (htable : s'.krnl.systemPortTable = s.krnl.systemPortTable) (hports : SamePorts s s') :
    PortsFromTable table s' := by
  refine ⟨htable.trans h.systemPortTable, fun i hi => ?_, fun i hi => ?_⟩
  · rw [hports.samplingPortCount] at hi
    obtain ⟨row, hrow, hport⟩ := h.sampling i hi
    obtain ⟨validity, hsame⟩ := hports.samplingPorts i
    rw [hsame]
    exact ⟨row, hrow, hport.name, hport.maxMessageSize, hport.portDirection, hport.channel⟩
  · rw [hports.queuingPortCount] at hi
    rw [hports.queuingPorts]
    exact h.queuing i hi

theorem PortsFromTable.move {table : List PortMapping} (h : PortsFromTable table s) (hm : Move A s s') :
    PortsFromTable table s' := by
  rcases hm.setup with ⟨hconf, hports⟩ | ⟨row, port, hrow, -, hport, rfl⟩ | ⟨row, port, hrow, -, hport, rfl⟩
  · exact h.congr hconf.systemPortTable hports
  · refine ⟨h.systemPortTable, fun i hi => ?_, h.queuing⟩
    dsimp only at hi ⊢
    by_cases hnew : i = s.res.samplingPortCount
    · rw [hnew, Function.update_self]
      exact ⟨row, h.systemPortTable ▸ hrow, hport⟩
    · rw [Function.update_of_ne hnew]
      exact h.sampling i (by omega)
  · refine ⟨h.systemPortTable, h.sampling, fun i hi => ?_⟩
    dsimp only at hi ⊢
    by_cases hnew : i = s.res.queuingPortCount
    · rw [hnew, Function.update_self]
      exact ⟨row, h.systemPortTable ▸ hrow, hport⟩
    · rw [Function.update_of_ne hnew]
      exact h.queuing i (by omega)

/-- What holds of a partition whatever it executes. -/
structure Grounded (table : List PortMapping) (s : Pcb) : Prop where
  sound : Sound s
  current : HasCurrent s
  ports : PortsFromTable table s

theorem Grounded.step {table : List PortMapping} {e : Action} (h : Grounded table s) (hstep : s.step e = some s') :
    Grounded table s' := by
  have hmoves := step_moves h.sound.running (permits_all s e) hstep
  have hkept := Moves.keep (I := fun s => HasCurrent s ∧ PortsFromTable table s)
    (fun _ _ _ h hm => ⟨h.1.move hm, h.2.move hm⟩) hmoves h.sound ⟨h.current, h.ports⟩
  exact ⟨hkept.1, hkept.2.1, hkept.2.2⟩

theorem Grounded.onKrnl {table : List PortMapping} (h : Grounded table s) {k : Krnl}
    (htable : k.systemPortTable = table) : Grounded table { s with krnl := k } :=
  ⟨⟨h.sound.process, h.sound.main, h.sound.starting, h.sound.running⟩, h.current,
    ⟨htable, h.ports.sampling, h.ports.queuing⟩⟩

theorem grounded_startPartitionOs (period identifier : Int) (conf : PartitionConf) (maxErrors : Nat) (krnl : Krnl)
    (memory : Nat → Process) (lastTick : Nat) : Grounded krnl.systemPortTable
      (partitionInit period identifier conf maxErrors krnl memory lastTick).startPartitionOs := by
  have hinit : HasCurrent (partitionInit period identifier conf maxErrors krnl memory lastTick)
      ∧ PortsFromTable krnl.systemPortTable
        (partitionInit period identifier conf maxErrors krnl memory lastTick) :=
    ⟨fun h => (nomatch h), rfl, fun _ hi => absurd hi (Nat.not_lt_zero _), fun _ hi => absurd hi (Nat.not_lt_zero _)⟩
  have hkept := Moves.keep (A := .all) (I := fun s => HasCurrent s ∧ PortsFromTable krnl.systemPortTable s)
    (fun _ _ _ h hm => ⟨h.1.move hm, h.2.move hm⟩)
    (startPartitionOs_moves _)
    (sound_partitionInit period identifier conf maxErrors krnl memory lastTick) hinit
  exact ⟨hkept.1, hkept.2.1, hkept.2.2⟩

/-! ## The kernel's memory -/

/-- `k`, with the parts of `k'` that a service writes. -/
def krnlAfter (k k' : Krnl) : Service → Krnl
  | .writeSamplingMessage _ _ _ => { k with samplingChannels := k'.samplingChannels }
  | .sendQueuingMessage _ _ _ _ | .receiveQueuingMessage _ _ | .clearQueuingPort _ =>
    { k with queuingChannels := k'.queuingChannels }
  | .setPartitionMode _ => { k with moduleScheduler := k'.moduleScheduler }
  | _ => k

/-- An outcome that has written nothing of the kernel but queuing channels. -/
def WritesQueuing (s : Pcb) (o : Outcome) : Prop :=
  o.1.krnl = { s.krnl with queuingChannels := o.1.krnl.queuingChannels }

theorem WritesQueuing.congr {o : Outcome} (h : WritesQueuing s' o) (hkrnl : s'.krnl = s.krnl) :
    WritesQueuing s o := by
  unfold WritesQueuing at h ⊢
  rw [hkrnl] at h
  exact h

theorem blocked_writesQueuing (p : Nat) (q : WaitList) (linked : Bool) (discipline : QueuingDiscipline)
    (timer : Option Int) (k : Context) :
    WritesQueuing s ((s.waitOn p q linked discipline timer).yieldToPartition p k) := by
  have hkrnl := congrArg Stores.krnl (blocked_stores (s := s) p q linked discipline timer k)
  unfold WritesQueuing
  rw [show ((s.waitOn p q linked discipline timer).yieldToPartition p k).1.krnl = s.krnl from hkrnl]

/-- A service writes its own part of the kernel's memory only. -/
theorem exec_krnl (s : Pcb) (service : Service) :
    (s.exec service).1.krnl = krnlAfter s.krnl (s.exec service).1.krnl service := by
  have hstores := congrArg Stores.krnl (exec_stores s service)
  cases service with
  | writeSamplingMessage samplingPortId messageAddr length =>
      let P : Outcome → Prop := fun o => o.1.krnl = { s.krnl with samplingChannels := o.1.krnl.samplingChannels }
      show P (s.writeSamplingMessage samplingPortId messageAddr length)
      unfold writeSamplingMessage
      split
      · rfl
      · refine refused_elim rfl fun _ => refused_elim rfl fun _ => refused_elim rfl fun _ => ?_
        split <;> rfl
  | sendQueuingMessage queuingPortId messageAddr length timeOut =>
      show WritesQueuing s (s.sendQueuingMessage queuingPortId messageAddr length timeOut)
      unfold sendQueuingMessage
      split
      · rfl
      · refine refused_elim rfl fun _ => refused_elim rfl fun _ => refused_elim rfl fun _ => ?_
        refine refused_elim rfl fun _ => withCurrent_elim rfl fun node _ => ?_
        dsimp only
        split
        · rfl
        · split
          · rfl
          · exact refused_elim rfl fun _ => refused_elim rfl fun _ => blocked_writesQueuing _ _ _ _ _ _
  | receiveQueuingMessage queuingPortId timeOut =>
      show WritesQueuing s (s.receiveQueuingMessage queuingPortId timeOut)
      unfold receiveQueuingMessage
      split
      · rfl
      · refine refused_elim rfl fun _ => refused_elim rfl fun _ => withCurrent_elim rfl fun node _ => ?_
        dsimp only
        split
        · rfl
        · split
          · rfl
          · exact refused_elim rfl fun _ => refused_elim rfl fun _ => blocked_writesQueuing _ _ _ _ _ _
  | clearQueuingPort queuingPortId =>
      show WritesQueuing s (s.clearQueuingPort queuingPortId)
      unfold clearQueuingPort
      split
      · rfl
      · refine refused_elim rfl fun _ => ?_
        split <;> rfl
  | setPartitionMode operatingMode =>
      let P : Outcome → Prop := fun o => o.1.krnl = { s.krnl with moduleScheduler := o.1.krnl.moduleScheduler }
      show P (s.setPartitionMode operatingMode)
      unfold setPartitionMode
      split
      · rfl
      · next mode _ =>
          refine refused_elim rfl fun _ => refused_elim rfl fun _ => ?_
          cases mode with
          | normal =>
              dsimp only [P]
              unfold startProcesses
              rw [forEachProcess_eq]
              dsimp only
              split <;> rfl
          | _ => rfl
  | _ => exact hstores

/-- So does the rest of a service. -/
theorem resumeContext_krnl (s : Pcb) (p : Nat) : WritesQueuing s (s.resumeContext p) := by
  have hstores := congrArg Stores.krnl (resumeContext_stores s p)
  cases hk : (s.proc p).context with
  | sendQueuingMessage index messageAddr length timeOut =>
      unfold resumeContext
      rw [hk]
      dsimp only
      refine refused_elim rfl fun _ => ?_
      split
      · rfl
      · split <;> rfl
  | receiveQueuingMessage index timeOut =>
      unfold resumeContext
      rw [hk]
      dsimp only
      refine refused_elim rfl fun _ => ?_
      split
      · rfl
      · split <;> rfl
  | _ =>
      rw [hk] at hstores
      have hkrnl : (s.resumeContext p).1.krnl = s.krnl := hstores
      unfold WritesQueuing
      rw [hkrnl]

theorem partitionOsLoop_krnl (s : Pcb) : WritesQueuing s s.partitionOsLoop := by
  have hdispatched : s.dispatched.krnl = s.krnl := congrArg Stores.krnl (dispatched_stores s)
  rw [partitionOsLoop_eq]
  split
  · rfl
  · split
    · unfold WritesQueuing
      rw [hdispatched]
    · split
      · exact (resumeContext_krnl _ _).congr hdispatched
      · unfold WritesQueuing
        rw [hdispatched]

/-- Besides the kernel nobody moves the clock, and nobody changes the table. -/
theorem step_clock {e : Action} (hkernel : e.isKernel = false) (hstep : s.step e = some s') :
    s'.krnl.uptime = s.krnl.uptime ∧ s'.krnl.systemPortTable = s.krnl.systemPortTable := by
  have hstores := congrArg Stores.krnl (step_stores hstep)
  cases e with
  | call service =>
      obtain ⟨-, rfl⟩ := call_eq_some hstep
      rw [exec_krnl]
      cases service <;> exact ⟨rfl, rfl⟩
  | loop =>
      obtain ⟨-, rfl⟩ := loop_eq_some hstep
      rw [partitionOsLoop_krnl s]
      exact ⟨rfl, rfl⟩
  | kernel => cases hkernel
  | _ => exact ⟨congrArg Krnl.uptime hstores, congrArg Krnl.systemPortTable hstores⟩

/-! ## Results -/

/-- The call has returned `NO_ERROR`. -/
def succeeds (o : Outcome) : Bool := decide (o.2.map Result.returnCode = some .noError)

theorem succeeds_ret (rc : ReturnCode) : succeeds (s.ret rc) = decide (rc = .noError) := by
  unfold succeeds ret
  simp only [Option.map_some, Option.some.injEq]

/-- What a call on a port does: it is refused, or it finds no channel, or it does `f` to the port's channel. -/
inductive PortOutcome (s : Pcb) (found : Option Nat) (channelOf : Nat → Option Nat) (P : Nat → Nat → Prop)
    (f : Nat → Outcome) : Outcome → Prop
  | refused (rc : ReturnCode) (hrc : rc ≠ .noError) : PortOutcome s found channelOf P f (s.ret rc)
  | crashed : PortOutcome s found channelOf P f s.crash
  | done (index c : Nat) (hfind : found = some index) (hchannel : channelOf index = some c) (hP : P index c) :
      PortOutcome s found channelOf P f (f c)

end Pcb

/-! ## Steps -/

namespace CoreModule

variable {m m' : CoreModule}

/-- Partition `i` has executed: the others are as they were, on the kernel memory it left. -/
structure PartitionStep (m : CoreModule) (i : Nat) (e : Action) (m' : CoreModule) : Prop where
  step : (m.partition i).step e = some (m'.partition i)
  others : ∀ j, j ≠ i → m'.partition j = { m.partition j with krnl := m'.krnl }
  notKernel : e.isKernel = false

theorem step_partition {i : Nat} {e : Action} (h : m.step (.partition i e) = some m') : PartitionStep m i e m' := by
  unfold CoreModule.step at h
  dsimp only at h
  split at h
  · cases h
  · next hkernel =>
      obtain ⟨s, hs, rfl⟩ := Option.map_eq_some_iff.mp h
      refine ⟨?_, fun j hj => ?_, Bool.eq_false_iff.mpr hkernel⟩
      · rw [hs]
        simp only [partition, Function.update_self]
      · simp only [partition, Function.update_of_ne hj]

/-- Time has passed: neither the table nor a channel has changed. -/
theorem step_time {uptime ticks windowsIdx majorFrameCount : Nat}
    (h : m.step (.time uptime ticks windowsIdx majorFrameCount) = some m') :
    uptime ≤ maxUptime ∧ m'.krnl.uptime = uptime ∧ m'.krnl.systemPortTable = m.krnl.systemPortTable
      ∧ m'.krnl.queuingChannels = m.krnl.queuingChannels ∧ m'.krnl.samplingChannels = m.krnl.samplingChannels
      ∧ ∀ i, m'.partition i = { m.partition i with krnl := m'.krnl } := by
  unfold CoreModule.step at h
  obtain ⟨⟨-, hmax⟩, h⟩ := Option.ite_none_right_eq_some.mp h
  cases h
  exact ⟨hmax, rfl, rfl, rfl, rfl, fun _ => rfl⟩

/-! ## Invariants -/

/-- What holds in every state of a module. -/
structure Grounded (table : List PortMapping) (m : CoreModule) : Prop where
  partitions : ∀ i, (m.partition i).Grounded table
  uptime : m.krnl.uptime ≤ maxUptime

/-- A partition's step moves no clock. -/
theorem PartitionStep.uptime {i : Nat} {e : Action} (h : PartitionStep m i e m') :
    m'.krnl.uptime = m.krnl.uptime :=
  (Pcb.step_clock h.notKernel h.step).1

theorem Grounded.step {table : List PortMapping} {e : ModuleAction} (h : Grounded table m)
    (hstep : m.step e = some m') : Grounded table m' := by
  cases e with
  | partition i e =>
      have hpartition := step_partition hstep
      have hi := (h.partitions i).step hpartition.step
      refine ⟨fun j => ?_, hpartition.uptime ▸ h.uptime⟩
      by_cases hj : j = i
      · rw [hj]
        exact hi
      · rw [hpartition.others j hj]
        exact (h.partitions j).onKrnl hi.ports.systemPortTable
  | time uptime ticks windowsIdx majorFrameCount =>
      obtain ⟨hmax, huptime, htable, -, -, hpartitions⟩ := step_time hstep
      refine ⟨fun j => ?_, huptime ▸ hmax⟩
      rw [hpartitions j]
      exact (h.partitions j).onKrnl (htable.trans (h.partitions j).ports.systemPortTable)

theorem grounded_moduleInit (krnl : Krnl) (table : Nat → PartitionBoot) (huptime : krnl.uptime ≤ maxUptime) :
    Grounded krnl.systemPortTable (moduleInit krnl table) :=
  ⟨fun i => (Pcb.grounded_startPartitionOs (table i).period (table i).identifier (table i).conf (table i).maxErrors krnl
    (table i).memory (table i).lastTick).onKrnl rfl, huptime⟩

end CoreModule

end UcxArinc
