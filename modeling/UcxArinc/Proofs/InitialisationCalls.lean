import UcxArinc.Implementation.Queries
import UcxArinc.Proofs.ControlFlow

set_option autoImplicit false

/-! # Calls from the initialisation code

While a partition starts there is no current process: `process_current` is `NULL`, and a service that
follows it does not return. `SparesCurrent` reads off the arguments and the state of the resources
which calls stay clear of it; `answers_iff` is that these are exactly the calls that hand back a return
code. -/

namespace UcxArinc

/-- A call of any service, with its input parameters. -/
inductive ApexCall
  | service (service : Service)
  | query (query : Query)

namespace Pcb

variable {s : Pcb}

/-! ## What it is to answer -/

/-- The outcome of a service that returns. -/
def Returned (o : Outcome) : Prop := o.1.ctl ≠ .crashed ∧ o.2.isSome

/-- The call follows no null pointer and hands back a return code. An accepted `SET_PARTITION_MODE`
    stores its return code and then leaves for the partition OS. -/
def Answers (s : Pcb) : ApexCall → Prop
  | .query query => (s.ask query).isSome
  | .service (.setPartitionMode operatingMode) => (s.setPartitionMode operatingMode).1.ctl ≠ .crashed
  | .service service => Returned (s.exec service)

theorem returned_ret {rc : ReturnCode} (hctl : s.ctl ≠ .crashed) : Returned (s.ret rc) :=
  ⟨hctl, rfl⟩

theorem not_returned_crash : ¬ Returned s.crash := fun h => h.1 rfl

/-- Whatever follows `process_current` does not return. -/
theorem not_returned_withCurrent (hcurrent : s.processCurrent = none) (f : Node → Outcome) :
    ¬ Returned (s.withCurrent f) := by
  unfold withCurrent
  rw [hcurrent]
  exact not_returned_crash

/-- A service that looks a resource up: it returns exactly when it finds nothing, or returns with
    what it finds. -/
theorem returned_lookup {rc : ReturnCode} {f : Nat → Outcome} {A : Nat → Prop} (found : Option Nat)
    (hctl : s.ctl ≠ .crashed) : (∀ i, found = some i → (Returned (f i) ↔ A i)) →
    (Returned (match found with | none => s.ret rc | some i => f i) ↔ ∀ i, found = some i → A i) := by
  intro hf
  cases found with
  | none => exact ⟨fun _ i hi => (nomatch hi), fun _ => returned_ret hctl⟩
  | some i =>
      constructor
      · intro h j hj
        obtain rfl := Option.some.inj hj
        exact (hf i rfl).mp h
      · intro h
        exact (hf i rfl).mpr (h i rfl)

/-- A check of a service: refused, it returns. -/
theorem returned_check {c : Prop} [Decidable c] {rc : ReturnCode} {o : Outcome} {A : Prop}
    (hctl : s.ctl ≠ .crashed) (ho : Returned o ↔ A) :
    Returned (if c then s.ret rc else o) ↔ c ∨ A := by
  by_cases hc : c
  · rw [if_pos hc]
    exact ⟨fun _ => .inl hc, fun _ => returned_ret hctl⟩
  · rw [if_neg hc, ho]
    exact ⟨.inr, fun h => h.resolve_left hc⟩

/-! ## The calls that stay clear of the current process -/

/-- `TIME_OUT` is refused. -/
abbrev Refused (s : Pcb) (timeOut : Int) : Prop := s.timeOutInvalid timeOut = true

/-- `SET_PRIORITY` yields to the scheduler when the process could run, and follows its owned mutex. -/
structure QuietlySet (s : Pcb) (node : Node) : Prop where
  notRunnable : (s.proc node.data).processState ≠ .ready ∧ (s.proc node.data).processState ≠ .running
  mutexFound : (s.proc node.data).ownedMutexId = noMutexOwned ∨
    (s.findMutexById (s.proc node.data).ownedMutexId).isSome

/-- The call never follows `process_current`, or another null pointer. -/
def SparesCurrent (s : Pcb) : ApexCall → Prop
  | .query .getMyId | .query .getMyIndex | .query .getMyProcessorCoreId => False
  | .query _ => True
  | .service call => match call with
    | .suspendSelf _ | .suspend _ | .resume _ | .stopSelf | .stop _ | .lockPreemption
    | .unlockPreemption | .timedWait _ | .periodicWait | .replenish _ | .aperiodicWaitEvent _
    | .resetMutex _ _ | .raiseApplicationError _ _ _ | .getErrorStatus => False
    | .setPriority processId priority => ∀ node, s.isProcessIdExisted processId = some node →
      (priority < minPriorityValue ∨ maxPriorityValue < priority) ∨
      (s.proc node.data).processState = .dormant ∨ s.QuietlySet node
    | .displayBlackboard blackboardId _ length =>
      ∀ i, s.findBlackboardById blackboardId = some i →
        (s.res.blackboards i).maxMessageSize < length ∨ length ≤ 0 ∨
          s.waitingCount (.blackboard, i) ≤ 0
    | .readBlackboard blackboardId timeOut =>
      ∀ i, s.findBlackboardById blackboardId = some i → s.Refused timeOut
    | .sendBuffer bufferId _ length timeOut => ∀ i, s.findBufferById bufferId = some i →
      (s.res.buffers i).maxMessageSize ≤ length ∨ length ≤ 0 ∨ s.Refused timeOut
    | .receiveBuffer bufferId timeOut _ =>
      ∀ i, s.findBufferById bufferId = some i → s.Refused timeOut
    | .waitSemaphore semaphoreId timeOut =>
      ∀ i, s.findSemaphoreById semaphoreId = some i → s.Refused timeOut
    | .signalSemaphore semaphoreId => ∀ i, s.findSemaphoreById semaphoreId = some i →
      (s.res.semaphores i).currentValue = (s.res.semaphores i).maximumValue ∨
        s.waitingProcesses (.semaphore i) = []
    | .waitEvent eventId timeOut => ∀ i, s.findEventById eventId = some i → s.Refused timeOut
    | .setEvent eventId =>
      ∀ i, s.findEventById eventId = some i → s.waitingProcesses (.event i) = []
    | .acquireMutex mutexId timeOut => mutexId = preemptionLockMutex ∨
      ∀ i, s.findMutexById mutexId = some i → s.Refused timeOut
    | .releaseMutex mutexId => mutexId = preemptionLockMutex ∨ ∀ i, s.findMutexById mutexId ≠ some i
    | .writeSamplingMessage samplingPortId _ length =>
      ∀ i, s.findSamplingPortById samplingPortId = some i →
        (s.res.samplingPorts i).maxMessageSize < length ∨ length ≤ 0 ∨
        (s.res.samplingPorts i).portDirection ≠ .source ∨ (s.res.samplingPorts i).channel ≠ none
    | .readSamplingMessage samplingPortId =>
      ∀ i, s.findSamplingPortById samplingPortId = some i →
        (s.res.samplingPorts i).portDirection ≠ .destination ∨
        (s.res.samplingPorts i).channel ≠ none
    | .sendQueuingMessage queuingPortId _ length timeOut =>
      ∀ i, s.findQueuingPortById queuingPortId = some i →
        s.Refused timeOut ∨ (s.res.queuingPorts i).maxMessageSize ≤ length ∨ length ≤ 0 ∨
        (s.res.queuingPorts i).portDirection ≠ .source
    | .receiveQueuingMessage queuingPortId timeOut =>
      ∀ i, s.findQueuingPortById queuingPortId = some i →
        s.Refused timeOut ∨ (s.res.queuingPorts i).portDirection ≠ .destination
    | .clearQueuingPort queuingPortId => ∀ i, s.findQueuingPortById queuingPortId = some i →
      (s.res.queuingPorts i).portDirection ≠ .destination ∨ (s.res.queuingPorts i).channel ≠ none
    | _ => True

/-! ## Services that stay clear of it -/

/-- A check followed by the current process. -/
theorem returned_check_withCurrent {c : Prop} [Decidable c] {rc : ReturnCode} {f : Node → Outcome}
    (hctl : s.ctl ≠ .crashed) (hcurrent : s.processCurrent = none) :
    Returned (if c then s.ret rc else s.withCurrent f) ↔ c := by
  rw [returned_check hctl Iff.rfl]
  exact or_iff_left (not_returned_withCurrent hcurrent f)

/-- A service on the process a `PROCESS_ID` names. -/
theorem returned_withProcess {processId : Int} {f : Node → Outcome} (hctl : s.ctl ≠ .crashed)
    (hf : ∀ node, s.isProcessIdExisted processId = some node → Returned (f node)) :
    Returned (s.withProcess processId f) := by
  unfold withProcess
  cases hfound : s.isProcessIdExisted processId with
  | none => exact returned_ret hctl
  | some node => exact hf node hfound

/-- A service that checks a queuing discipline last but one. -/
theorem returned_discipline {x : Int} {f : QueuingDiscipline → Outcome} (hctl : s.ctl ≠ .crashed)
    (hf : ∀ discipline, Returned (f discipline)) :
    Returned (match QueuingDiscipline.ofInt? x with
      | none => s.ret .invalidParam
      | some discipline => f discipline) := by
  cases QueuingDiscipline.ofInt? x with
  | none => exact returned_ret hctl
  | some discipline => exact hf discipline

@[simp] theorem freshWaitList_ctl (s : Pcb) (q : WaitList) : (s.freshWaitList q).ctl = s.ctl := by
  rw [freshWaitList_eq]

theorem returned_createProcess (hctl : s.ctl ≠ .crashed) (attributes : ProcessAttribute) :
    Returned (s.createProcess attributes) := by
  unfold createProcess
  repeat refine refused_elim (returned_ret hctl) fun _ => ?_
  exact ⟨hctl, rfl⟩

theorem returned_createErrorHandler (hctl : s.ctl ≠ .crashed) (stackSize : Nat) :
    Returned (s.createErrorHandler stackSize) := by
  unfold createErrorHandler
  repeat refine refused_elim (returned_ret hctl) fun _ => ?_
  exact ⟨hctl, rfl⟩

theorem returned_createBlackboard (hctl : s.ctl ≠ .crashed) (name : Name) (maxMessageSize : Int) :
    Returned (s.createBlackboard name maxMessageSize) := by
  unfold createBlackboard
  repeat refine refused_elim (returned_ret hctl) fun _ => ?_
  exact ⟨by simp only [freshWaitList_ctl]; exact hctl, rfl⟩

theorem returned_createBuffer (hctl : s.ctl ≠ .crashed) (name : Name)
    (maxMessageSize maxNbMessage queuingDiscipline : Int) :
    Returned (s.createBuffer name maxMessageSize maxNbMessage queuingDiscipline) := by
  unfold createBuffer
  repeat refine refused_elim (returned_ret hctl) fun _ => ?_
  refine returned_discipline hctl fun discipline => refused_elim (returned_ret hctl) fun _ => ?_
  exact ⟨by simp only [freshWaitList_ctl]; exact hctl, rfl⟩

theorem returned_createSemaphore (hctl : s.ctl ≠ .crashed) (name : Name)
    (currentValue maximumValue queuingDiscipline : Int) :
    Returned (s.createSemaphore name currentValue maximumValue queuingDiscipline) := by
  unfold createSemaphore
  repeat refine refused_elim (returned_ret hctl) fun _ => ?_
  refine returned_discipline hctl fun discipline => refused_elim (returned_ret hctl) fun _ => ?_
  exact ⟨by simp only [freshWaitList_ctl]; exact hctl, rfl⟩

theorem returned_createEvent (hctl : s.ctl ≠ .crashed) (name : Name) :
    Returned (s.createEvent name) := by
  unfold createEvent
  repeat refine refused_elim (returned_ret hctl) fun _ => ?_
  exact ⟨by simp only [freshWaitList_ctl]; exact hctl, rfl⟩

theorem returned_createMutex (hctl : s.ctl ≠ .crashed) (name : Name)
    (mutexPriority queuingDiscipline : Int) :
    Returned (s.createMutex name mutexPriority queuingDiscipline) := by
  unfold createMutex
  repeat refine refused_elim (returned_ret hctl) fun _ => ?_
  refine returned_discipline hctl fun discipline => refused_elim (returned_ret hctl) fun _ => ?_
  exact ⟨by simp only [freshWaitList_ctl]; exact hctl, rfl⟩

theorem returned_createSamplingPort (hctl : s.ctl ≠ .crashed) (name : Name)
    (maxMessageSize portDirection refreshPeriod : Int) :
    Returned (s.createSamplingPort name maxMessageSize portDirection refreshPeriod) := by
  unfold createSamplingPort
  refine refused_elim (returned_ret hctl) fun _ => ?_
  cases s.checkPortInConfTable name with
  | none => exact returned_ret hctl
  | some row =>
      refine refused_elim (returned_ret hctl) fun _ => refused_elim (returned_ret hctl) fun _ => ?_
      cases checkPortDirectionInConf row portDirection with
      | none => exact returned_ret hctl
      | some direction =>
          refine refused_elim (returned_ret hctl) fun _ => ?_
          exact refused_elim (returned_ret hctl) fun _ => ⟨hctl, rfl⟩

theorem returned_createQueuingPort (hctl : s.ctl ≠ .crashed) (name : Name)
    (maxMessageSize maxNbMessage portDirection queuingDiscipline : Int) :
    Returned
      (s.createQueuingPort name maxMessageSize maxNbMessage portDirection queuingDiscipline) := by
  unfold createQueuingPort
  refine refused_elim (returned_ret hctl) fun _ => ?_
  cases s.checkPortInConfTable name with
  | none => exact returned_ret hctl
  | some row =>
      dsimp only
      repeat refine refused_elim (returned_ret hctl) fun _ => ?_
      cases checkPortDirectionInConf row portDirection with
      | none => exact returned_ret hctl
      | some direction =>
          cases QueuingDiscipline.ofInt? queuingDiscipline with
          | none => exact returned_ret hctl
          | some discipline =>
              exact refused_elim (returned_ret hctl) fun _ => ⟨by simp only [freshWaitList_ctl]; exact hctl, rfl⟩

theorem returned_start (hctl : s.ctl ≠ .crashed) (hmode : s.status.operatingMode ≠ .normal)
    (processId : Int) : Returned (s.start processId) := by
  unfold start
  refine returned_withProcess hctl fun node _ => ?_
  dsimp only
  refine refused_elim (returned_ret hctl) fun _ => refused_elim (returned_ret hctl) fun _ => ?_
  have hmode' : (s.modProc node.data initContext).status.operatingMode ≠ .normal := hmode
  rw [if_pos hmode']
  exact ⟨hctl, rfl⟩

theorem returned_delayedStart (hctl : s.ctl ≠ .crashed) (hmode : s.status.operatingMode ≠ .normal)
    (processId delayTime : Int) : Returned (s.delayedStart processId delayTime) := by
  unfold delayedStart
  refine returned_withProcess hctl fun node _ => ?_
  dsimp only
  refine refused_elim (returned_ret hctl) fun _ => refused_elim (returned_ret hctl) fun _ => ?_
  refine refused_elim (returned_ret hctl) fun _ => refused_elim (returned_ret hctl) fun _ => ?_
  refine refused_elim (returned_ret hctl) fun _ => ?_
  have hmode' : (s.modProc node.data initContext).status.operatingMode ≠ .normal := hmode
  rw [if_pos hmode']
  exact ⟨hctl, rfl⟩

/-! ## Services that need it on some paths -/

/-- A yield is not a return. -/
theorem not_returned_yield (t : Pcb) (k : Context) :
    ¬ Returned (t.withCurrent fun node => t.yieldToPartition node.data k) := by
  unfold withCurrent
  cases t.processCurrent with
  | none => exact not_returned_crash
  | some node => exact fun h => (nomatch h.2)

/-- The last step of `SET_PRIORITY`, on the process whose priority or mutex has been rewritten. -/
theorem returned_priority_set {t : Pcb} {node : Node} (hctl : t.ctl ≠ .crashed) :
    Returned
      (if (t.proc node.data).processState = .ready ∨ (t.proc node.data).processState = .running then
        let (u, newNode) := (t.listRemove node).listPushback node.data
        let u := if (u.proc node.data).processState = .running then u.setCurrent (some newNode) else u
        u.withCurrent fun current => u.yieldToPartition current.data .setPriority
      else t.ret .noError) ↔
    (t.proc node.data).processState ≠ .ready ∧ (t.proc node.data).processState ≠ .running := by
  by_cases hstate : (t.proc node.data).processState = .ready
      ∨ (t.proc node.data).processState = .running
  · rw [if_pos hstate]
    constructor
    · intro h
      exact absurd h (not_returned_yield _ _)
    · intro h
      exact absurd hstate (not_or.mpr h)
  · rw [if_neg hstate]
    exact ⟨fun _ => not_or.mp hstate, fun _ => returned_ret hctl⟩

theorem returned_setPriority (hctl : s.ctl ≠ .crashed) (processId priority : Int) :
    Returned (s.setPriority processId priority) ↔
      s.SparesCurrent (.service (.setPriority processId priority)) := by
  unfold setPriority withProcess
  show _ ↔ ∀ node, s.isProcessIdExisted processId = some node → _
  cases s.isProcessIdExisted processId with
  | none => exact ⟨fun _ node h => (nomatch h), fun _ => returned_ret hctl⟩
  | some node =>
      simp only [Option.some.injEq, forall_eq']
      refine returned_check hctl (returned_check hctl ?_)
      by_cases howned : (s.proc node.data).ownedMutexId = noMutexOwned
      · -- the process owns no mutex: its own priority changes
        rw [if_neg (not_not.mpr howned)]
        dsimp only
        refine (returned_priority_set (by exact hctl)).trans ?_
        rw [modProc_proc_self]
        exact ⟨fun h => ⟨h, .inl howned⟩, fun h => h.notRunnable⟩
      · rw [if_pos howned]
        cases hfound : s.findMutexById (s.proc node.data).ownedMutexId with
        | none =>
            refine ⟨fun h => absurd h not_returned_crash, fun h => ?_⟩
            rcases h.mutexFound with hno | hsome
            · exact absurd hno howned
            · rw [hfound] at hsome
              cases hsome
        | some index =>
            dsimp only [Option.map]
            refine (returned_priority_set (by exact hctl)).trans ?_
            exact ⟨fun h => ⟨h, .inr (by rw [hfound]; rfl)⟩, fun h => h.notRunnable⟩

theorem returned_displayBlackboard (hctl : s.ctl ≠ .crashed) (blackboardId : Int)
    (messageAddr : Area) (length : Int) :
    Returned (s.displayBlackboard blackboardId messageAddr length) ↔
      s.SparesCurrent (.service (.displayBlackboard blackboardId messageAddr length)) := by
  refine returned_lookup _ hctl fun i _ => ?_
  refine returned_check hctl (returned_check hctl ?_)
  by_cases hwaits : 0 < s.waitingCount (.blackboard, i)
  · simp only [hwaits, decide_true, if_true]
    exact ⟨fun h => absurd h (not_returned_yield _ _), fun h => absurd hwaits (not_lt.mpr h)⟩
  · simp only [hwaits, decide_false, Bool.false_eq_true, if_false]
    refine ⟨fun _ => not_lt.mp hwaits, fun _ => returned_ret ?_⟩
    rw [(wakeAll_caller _ _).2]
    exact hctl

theorem returned_signalSemaphore (hctl : s.ctl ≠ .crashed) (semaphoreId : Int) :
    Returned (s.signalSemaphore semaphoreId) ↔
      s.SparesCurrent (.service (.signalSemaphore semaphoreId)) := by
  refine returned_lookup _ hctl fun i _ => returned_check hctl ?_
  unfold wakeFirst
  cases hwaiters : s.waitingProcesses (.semaphore i) with
  | nil => exact ⟨fun _ => rfl, fun _ => returned_ret hctl⟩
  | cons p rest => exact ⟨fun h => absurd h (not_returned_yield _ _), fun h => (nomatch h)⟩

theorem returned_setEvent (hctl : s.ctl ≠ .crashed) (hcurrent : s.processCurrent = none)
    (eventId : Int) :
    Returned (s.setEvent eventId) ↔ s.SparesCurrent (.service (.setEvent eventId)) := by
  refine returned_lookup _ hctl fun i _ => ?_
  exact returned_check_withCurrent (s := s.setEventRecord i _) hctl hcurrent

/-- A port reaches its channel. -/
theorem returned_channel {channel : Option Nat} {f : Nat → Outcome} (hf : ∀ c, Returned (f c)) :
    Returned (match channel with | none => s.crash | some c => f c) ↔ channel ≠ none := by
  cases channel with
  | none => exact ⟨fun h => absurd h not_returned_crash, fun h => absurd rfl h⟩
  | some c => exact ⟨fun _ h => (nomatch h), fun _ => hf c⟩

/-- The services on ports that reach a channel after their checks. -/
theorem returned_writeSamplingMessage (hctl : s.ctl ≠ .crashed) (samplingPortId : Int)
    (messageAddr : Area) (length : Int) :
    Returned (s.writeSamplingMessage samplingPortId messageAddr length) ↔
      s.SparesCurrent (.service (.writeSamplingMessage samplingPortId messageAddr length)) := by
  refine returned_lookup _ hctl fun i _ => ?_
  refine returned_check hctl (returned_check hctl (returned_check hctl ?_))
  exact returned_channel fun c => ⟨hctl, rfl⟩

theorem returned_readSamplingMessage (hctl : s.ctl ≠ .crashed) (samplingPortId : Int) :
    Returned (s.readSamplingMessage samplingPortId) ↔
      s.SparesCurrent (.service (.readSamplingMessage samplingPortId)) := by
  refine returned_lookup _ hctl fun i _ => returned_check hctl ?_
  exact returned_channel fun c => ⟨hctl, rfl⟩

theorem returned_clearQueuingPort (hctl : s.ctl ≠ .crashed) (queuingPortId : Int) :
    Returned (s.clearQueuingPort queuingPortId) ↔
      s.SparesCurrent (.service (.clearQueuingPort queuingPortId)) := by
  refine returned_lookup _ hctl fun i _ => returned_check hctl ?_
  exact returned_channel fun c => ⟨hctl, rfl⟩

/-! ## Every call -/

theorem returned_iff (hmode : Starting s) (hcurrent : s.processCurrent = none)
    (hctl : s.ctl ≠ .crashed) {service : Service} (hservice : ∀ m, service ≠ .setPartitionMode m) :
    Returned (s.exec service) ↔ s.SparesCurrent (.service service) := by
  have hnormal : s.status.operatingMode ≠ .normal := by
    intro heq
    rw [Starting, heq] at hmode
    simp at hmode
  -- the services that follow `process_current` before anything else
  have hnever : ∀ f : Node → Outcome, Returned (s.withCurrent f) ↔ False := fun f =>
    iff_false_intro (not_returned_withCurrent hcurrent f)
  have halways : ∀ {o : Outcome}, Returned o → (Returned o ↔ True) := iff_true_intro
  cases service with
  | suspendSelf | suspend | resume | stopSelf | stop | lockPreemption | unlockPreemption | timedWait
    | periodicWait | replenish | aperiodicWaitEvent | resetMutex | raiseApplicationError
    | getErrorStatus => exact hnever _
  | createProcess attributes => exact halways (returned_createProcess hctl attributes)
  | initializeProcessCoreAffinity processId processorCoreId =>
      refine halways (returned_withProcess hctl fun node _ => ?_)
      refine refused_elim (returned_ret hctl) fun _ => refused_elim (returned_ret hctl) fun _ => ?_
      exact ⟨hctl, rfl⟩
  | start processId => exact halways (returned_start hctl hnormal processId)
  | delayedStart processId delayTime =>
      exact halways (returned_delayedStart hctl hnormal processId delayTime)
  | createBlackboard name size => exact halways (returned_createBlackboard hctl name size)
  | createBuffer name size number discipline =>
      exact halways (returned_createBuffer hctl name size number discipline)
  | createSemaphore name value maximum discipline =>
      exact halways (returned_createSemaphore hctl name value maximum discipline)
  | createEvent name => exact halways (returned_createEvent hctl name)
  | createMutex name priority discipline =>
      exact halways (returned_createMutex hctl name priority discipline)
  | createSamplingPort name size direction period =>
      exact halways (returned_createSamplingPort hctl name size direction period)
  | createQueuingPort name size number direction discipline =>
      exact halways (returned_createQueuingPort hctl name size number direction discipline)
  | createErrorHandler stackSize => exact halways (returned_createErrorHandler hctl stackSize)
  | clearBlackboard blackboardId =>
      refine halways ((returned_lookup _ hctl fun i _ => ?_).mpr fun _ _ => trivial)
      exact iff_true_intro ⟨hctl, rfl⟩
  | resetEvent eventId =>
      refine halways ((returned_lookup _ hctl fun i _ => ?_).mpr fun _ _ => trivial)
      exact iff_true_intro ⟨hctl, rfl⟩
  | setPriority processId priority => exact returned_setPriority hctl processId priority
  | displayBlackboard blackboardId messageAddr length =>
      exact returned_displayBlackboard hctl blackboardId messageAddr length
  | signalSemaphore semaphoreId => exact returned_signalSemaphore hctl semaphoreId
  | setEvent eventId => exact returned_setEvent hctl hcurrent eventId
  | readBlackboard | receiveBuffer | waitSemaphore | waitEvent =>
      exact returned_lookup _ hctl fun i _ => returned_check_withCurrent hctl hcurrent
  | sendBuffer bufferId messageAddr length timeOut =>
      refine returned_lookup _ hctl fun i _ => ?_
      exact returned_check hctl (returned_check hctl (returned_check_withCurrent hctl hcurrent))
  | acquireMutex mutexId timeOut =>
      refine returned_check hctl (returned_lookup _ hctl fun i _ => ?_)
      exact returned_check_withCurrent hctl hcurrent
  | releaseMutex mutexId =>
      exact returned_check hctl (returned_lookup _ hctl fun i _ => hnever _)
  | writeSamplingMessage samplingPortId messageAddr length =>
      exact returned_writeSamplingMessage hctl samplingPortId messageAddr length
  | readSamplingMessage samplingPortId => exact returned_readSamplingMessage hctl samplingPortId
  | clearQueuingPort queuingPortId => exact returned_clearQueuingPort hctl queuingPortId
  | sendQueuingMessage queuingPortId messageAddr length timeOut =>
      refine returned_lookup _ hctl fun i _ => returned_check hctl (returned_check hctl ?_)
      exact returned_check hctl (returned_check_withCurrent hctl hcurrent)
  | receiveQueuingMessage queuingPortId timeOut =>
      refine returned_lookup _ hctl fun i _ => returned_check hctl ?_
      exact returned_check_withCurrent hctl hcurrent
  | setPartitionMode m => exact absurd rfl (hservice m)

/-- `SET_PARTITION_MODE` follows no null pointer in any mode. -/
theorem setPartitionMode_ctl (hctl : s.ctl ≠ .crashed) (operatingMode : Int) :
    (s.setPartitionMode operatingMode).1.ctl ≠ .crashed := by
  unfold setPartitionMode
  cases OperatingMode.ofInt? operatingMode with
  | none => exact hctl
  | some mode =>
      refine refused_elim (P := fun o => o.1.ctl ≠ .crashed) hctl fun _ => ?_
      refine refused_elim (P := fun o => o.1.ctl ≠ .crashed) hctl fun _ => ?_
      cases mode <;> exact Control.noConfusion

/-- Which queries need the calling process. -/
theorem ask_isSome (hcurrent : s.processCurrent = none) (query : Query) :
    (s.ask query).isSome ↔ s.SparesCurrent (.query query) := by
  have hnever : ∀ {α : Type} (f : Nat → Except ReturnCode α),
      ((s.ofCurrent f).map replyCode).isSome ↔ False := by
    intro α f
    unfold ofCurrent
    rw [hcurrent]
    simp
  cases query with
  | getMyId | getMyIndex | getMyProcessorCoreId => exact hnever _
  | _ => exact iff_true_intro rfl

/-- While the partition starts and its initialisation code runs, a call hands back a return code without
    following `process_current` exactly when it stays clear of it. -/
theorem answers_iff (hmode : Starting s) (hcurrent : s.processCurrent = none)
    (hctl : s.ctl = .mainProcess) (call : ApexCall) : s.Answers call ↔ s.SparesCurrent call := by
  have hcrash : s.ctl ≠ .crashed := by
    rw [hctl]
    exact Control.noConfusion
  cases call with
  | query query => exact ask_isSome hcurrent query
  | service service =>
      by_cases hservice : ∃ m, service = .setPartitionMode m
      · obtain ⟨m, rfl⟩ := hservice
        exact iff_true_intro (setPartitionMode_ctl hcrash m)
      · have hne : ∀ m, service ≠ .setPartitionMode m := fun m heq => hservice ⟨m, heq⟩
        rw [← returned_iff hmode hcurrent hcrash hne]
        cases service with
        | setPartitionMode m => exact absurd rfl (hne m)
        | _ => exact Iff.rfl

/-- The default partition runs its initialisation code: an event is created, a semaphore is waited for that
    does not exist. -/
theorem answers_iff_default : ∃ s, (defaultPartition 1).step .loop = some s
    ∧ s.Answers (.service (.createEvent "E".toList)) ∧ s.Answers (.service (.waitSemaphore 1 0))
    ∧ ¬ s.Answers (.query .getMyId) := by
  refine ⟨{ defaultPartition 1 with ctl := .mainProcess }, rfl, ?_, ?_, ?_⟩
  · exact (answers_iff (Or.inl rfl) rfl rfl _).mpr trivial
  · refine (answers_iff (Or.inl rfl) rfl rfl _).mpr fun i hi => ?_
    cases hi
  · exact fun h => (answers_iff (Or.inl rfl) rfl rfl _).mp h

/-- `LOCK_PREEMPTION`, which means to answer `NO_ACTION` in every mode but `NORMAL`, takes the current process
    first. -/
theorem lockPreemption_needs_current : ¬ ∀ s, (defaultPartition 1).step .loop = some s → Starting s →
    s.processCurrent = none → s.ctl = .mainProcess → ∀ call, s.Answers call := by
  intro h
  have hanswers := h { defaultPartition 1 with ctl := .mainProcess } rfl (Or.inl rfl) rfl rfl
    (.service .lockPreemption)
  exact hanswers.1 rfl

end Pcb

end UcxArinc
