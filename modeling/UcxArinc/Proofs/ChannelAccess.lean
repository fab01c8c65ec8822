import UcxArinc.Proofs.PortIsolation

set_option autoImplicit false

/-! # Which channels a partition reaches

A step reaches only the partition's own channels when it commutes with any change of what the other
channels hold: it neither reads nor writes them. The port services do so, and the loop that ends
the ones that waited, as long as the ports of the partition are isolated. -/

namespace UcxArinc

namespace Pcb

variable {s : Pcb} {own own' : Nat → Bool} {f : Nat → SamplingChannel} {g : Nat → QueuingChannel}

/-! ## Other channels -/

/-- The routing table assigns sampling channel `c` to the partition. -/
def ownsSamplingChannel (s : Pcb) (c : Nat) : Bool :=
  s.krnl.systemPortTable.any fun row =>
    decide (row.partitionId = s.status.identifier ∧ row.samplingChannel = some c)

/-- The routing table assigns queuing channel `c` to the partition. -/
def ownsQueuingChannel (s : Pcb) (c : Nat) : Bool :=
  s.krnl.systemPortTable.any fun row =>
    decide (row.partitionId = s.status.identifier ∧ row.queuingChannel = some c)

/-- The state with `f` and `g` in the channels that are not in `own` and `own'`. -/
def withForeign (s : Pcb) (own own' : Nat → Bool) (f : Nat → SamplingChannel)
    (g : Nat → QueuingChannel) : Pcb :=
  { s with krnl := { s.krnl with
    samplingChannels := fun c => if own c then s.krnl.samplingChannels c else f c
    queuingChannels := fun c => if own' c then s.krnl.queuingChannels c else g c } }

/-- The same on an outcome. -/
def foreignOutcome (o : Outcome) (own own' : Nat → Bool) (f : Nat → SamplingChannel)
    (g : Nat → QueuingChannel) : Outcome := (o.1.withForeign own own' f g, o.2)

theorem withForeign_samplingChannels {c : Nat} (hc : own c = true) :
    (s.withForeign own own' f g).krnl.samplingChannels c = s.krnl.samplingChannels c := if_pos hc

theorem withForeign_queuingChannels {c : Nat} (hc : own' c = true) :
    (s.withForeign own own' f g).krnl.queuingChannels c = s.krnl.queuingChannels c := if_pos hc

/-- A value written to an own place is there, whatever the other places hold. -/
theorem update_foreign {α : Type} {own : Nat → Bool} {c : Nat} (hc : own c = true) (h f : Nat → α)
    (x : α) : Function.update (fun c => if own c then h c else f c) c x
      = fun c' => if own c' then Function.update h c x c' else f c' := by
  funext c'
  by_cases h' : c' = c
  · subst h'
    rw [Function.update_self, Function.update_self, if_pos hc]
  · rw [Function.update_of_ne h', Function.update_of_ne h']

theorem setQueuingChannel_withForeign {c : Nat} (hc : own' c = true) (x : QueuingChannel) :
    (s.withForeign own own' f g).setQueuingChannel c x
      = (s.setQueuingChannel c x).withForeign own own' f g := by
  unfold setQueuingChannel withForeign
  dsimp only
  rw [update_foreign hc]

/-! ## The port services -/

/-- What the services need to know of the port an identifier names. -/
def OwnSamplingPorts (s : Pcb) (own : Nat → Bool) : Prop :=
  ∀ i, i < s.res.samplingPortCount →
    ∃ c, (s.res.samplingPorts i).channel = some c ∧ own c = true

/-- The same for queuing ports; the ones not created have no channel. -/
structure OwnQueuingPorts (s : Pcb) (own' : Nat → Bool) : Prop where
  created : ∀ i, i < s.res.queuingPortCount →
    ∃ c, (s.res.queuingPorts i).channel = some c ∧ own' c = true
  unused : ∀ i, s.res.queuingPortCount ≤ i → (s.res.queuingPorts i).channel = none

/-- A check that does not look at the channels. -/
theorem refused_withForeign {p : Prop} [Decidable p] {rc : ReturnCode} {o o' : Outcome}
    (h : o' = foreignOutcome o own own' f g) :
    (if p then (s.withForeign own own' f g).ret rc else o')
      = foreignOutcome (if p then s.ret rc else o) own own' f g := by
  by_cases hp : p
  · rw [if_pos hp, if_pos hp]
    rfl
  · rw [if_neg hp, if_neg hp, h]

theorem writeSamplingMessage_withForeign (h : OwnSamplingPorts s own) (samplingPortId : Int)
    (messageAddr : Area) (length : Int) :
    (s.withForeign own own' f g).writeSamplingMessage samplingPortId messageAddr length
      = foreignOutcome (s.writeSamplingMessage samplingPortId messageAddr length) own own' f g := by
  unfold writeSamplingMessage
  rw [show (s.withForeign own own' f g).findSamplingPortById samplingPortId
    = s.findSamplingPortById samplingPortId from rfl]
  cases hfind : s.findSamplingPortById samplingPortId with
  | none => rfl
  | some index =>
      obtain ⟨c, hc, hown⟩ := h index (findIndex_eq_some hfind).1
      dsimp only
      rw [show (s.withForeign own own' f g).res = s.res from rfl, hc]
      dsimp only
      rw [withForeign_samplingChannels hown]
      split_ifs
      iterate 3 rfl
      dsimp only [foreignOutcome, withForeign, ret]
      rw [update_foreign hown]

theorem readSamplingMessage_withForeign (h : OwnSamplingPorts s own) (samplingPortId : Int) :
    (s.withForeign own own' f g).readSamplingMessage samplingPortId
      = foreignOutcome (s.readSamplingMessage samplingPortId) own own' f g := by
  unfold readSamplingMessage
  rw [show (s.withForeign own own' f g).findSamplingPortById samplingPortId
    = s.findSamplingPortById samplingPortId from rfl]
  cases hfind : s.findSamplingPortById samplingPortId with
  | none => rfl
  | some index =>
      obtain ⟨c, hc, hown⟩ := h index (findIndex_eq_some hfind).1
      dsimp only
      rw [show (s.withForeign own own' f g).res = s.res from rfl, hc]
      dsimp only
      rw [withForeign_samplingChannels hown]
      split
      · rfl
      · rfl

theorem takeFromChannel_withForeign {c : Nat} (hc : own' c = true) :
    (s.withForeign own own' f g).takeFromChannel c
      = foreignOutcome (s.takeFromChannel c) own own' f g := by
  unfold takeFromChannel
  dsimp only
  rw [withForeign_queuingChannels hc, setQueuingChannel_withForeign hc]
  rfl

theorem sendQueuingMessage_withForeign (h : OwnQueuingPorts s own') (queuingPortId : Int)
    (messageAddr : Area) (length timeOut : Int) :
    (s.withForeign own own' f g).sendQueuingMessage queuingPortId messageAddr length timeOut
      = foreignOutcome (s.sendQueuingMessage queuingPortId messageAddr length timeOut)
          own own' f g := by
  unfold sendQueuingMessage
  rw [show (s.withForeign own own' f g).findQueuingPortById queuingPortId
    = s.findQueuingPortById queuingPortId from rfl]
  cases hfind : s.findQueuingPortById queuingPortId with
  | none => rfl
  | some index =>
      obtain ⟨c, hc, hown⟩ := h.created index (findIndex_eq_some hfind).1
      unfold withCurrent
      dsimp only
      refine refused_withForeign (refused_withForeign (refused_withForeign (refused_withForeign ?_)))
      rw [show (s.withForeign own own' f g).res = s.res from rfl, hc,
        show (s.withForeign own own' f g).processCurrent = s.processCurrent from rfl]
      cases s.processCurrent with
      | none => rfl
      | some node =>
          dsimp only
          rw [withForeign_queuingChannels hown, setQueuingChannel_withForeign hown,
            show (s.withForeign own own' f g).waitingProcesses = s.waitingProcesses from rfl]
          split
          · rfl
          · exact refused_withForeign (refused_withForeign rfl)

theorem receiveQueuingMessage_withForeign (h : OwnQueuingPorts s own')
    (queuingPortId timeOut : Int) :
    (s.withForeign own own' f g).receiveQueuingMessage queuingPortId timeOut
      = foreignOutcome (s.receiveQueuingMessage queuingPortId timeOut) own own' f g := by
  unfold receiveQueuingMessage
  rw [show (s.withForeign own own' f g).findQueuingPortById queuingPortId
    = s.findQueuingPortById queuingPortId from rfl]
  cases hfind : s.findQueuingPortById queuingPortId with
  | none => rfl
  | some index =>
      obtain ⟨c, hc, hown⟩ := h.created index (findIndex_eq_some hfind).1
      unfold withCurrent
      dsimp only
      refine refused_withForeign (refused_withForeign ?_)
      rw [show (s.withForeign own own' f g).res = s.res from rfl, hc,
        show (s.withForeign own own' f g).processCurrent = s.processCurrent from rfl]
      cases s.processCurrent with
      | none => rfl
      | some node =>
          dsimp only
          rw [withForeign_queuingChannels hown, takeFromChannel_withForeign hown]
          split
          · rfl
          · exact refused_withForeign (refused_withForeign rfl)

theorem clearQueuingPort_withForeign (h : OwnQueuingPorts s own') (queuingPortId : Int) :
    (s.withForeign own own' f g).clearQueuingPort queuingPortId
      = foreignOutcome (s.clearQueuingPort queuingPortId) own own' f g := by
  unfold clearQueuingPort
  rw [show (s.withForeign own own' f g).findQueuingPortById queuingPortId
    = s.findQueuingPortById queuingPortId from rfl]
  cases hfind : s.findQueuingPortById queuingPortId with
  | none => rfl
  | some index =>
      obtain ⟨c, hc, hown⟩ := h.created index (findIndex_eq_some hfind).1
      dsimp only
      rw [show (s.withForeign own own' f g).res = s.res from rfl, hc]
      dsimp only
      rw [withForeign_queuingChannels hown]
      split
      · rfl
      · rw [setQueuingChannel_withForeign hown]
        rfl

/-! ## The loop -/

theorem wakeFirst_withForeign (q : WaitList) (cancel : Bool) :
    (s.withForeign own own' f g).wakeFirst q cancel
      = (s.wakeFirst q cancel).map fun w => (w.1, w.2.withForeign own own' f g) := by
  unfold wakeFirst
  rw [show (s.withForeign own own' f g).waitingProcesses = s.waitingProcesses from rfl]
  cases s.waitingProcesses q with
  | nil => rfl
  | cons p rest => cases q <;> rfl

theorem forEachProcess_withForeign (visit : Process → Process) :
    (s.withForeign own own' f g).forEachProcess visit
      = (s.forEachProcess visit).withForeign own own' f g := by
  rw [forEachProcess_eq, forEachProcess_eq]
  rfl

theorem wokenFirst_withForeign (q : WaitList) :
    (s.withForeign own own' f g).wokenFirst q = (s.wokenFirst q).withForeign own own' f g := by
  unfold wokenFirst
  rw [wakeFirst_withForeign]
  cases s.wakeFirst q false with
  | none => rfl
  | some w => rfl

theorem checkPort_withForeign {c : Nat} (hc : own' c = true) (index : Nat) :
    (s.withForeign own own' f g).checkPort index c
      = (s.checkPort index c).withForeign own own' f g := by
  rw [checkPort_eq, checkPort_eq, withForeign_queuingChannels hc,
    show (s.withForeign own own' f g).res = s.res from rfl, wokenFirst_withForeign]
  split_ifs
  · exact wokenFirst_withForeign _
  · exact wokenFirst_withForeign _
  · rfl
  · rfl

theorem wokenFirst_res (s : Pcb) (q : WaitList) : (s.wokenFirst q).res = s.res := by
  rcases wokenFirst_cases s q with ⟨-, h⟩ | ⟨p, h⟩
  · rw [h]
  · obtain ⟨rest, -, heq⟩ := wakeFirst_eq_some h
    rw [heq]
    rfl

theorem checkPort_res (s : Pcb) (index c : Nat) : (s.checkPort index c).res = s.res := by
  rw [checkPort_eq]
  split_ifs
  · rw [wokenFirst_res, wokenFirst_res]
  · exact wokenFirst_res _ _
  · exact wokenFirst_res _ _
  · rfl

/-- The loop follows the channel of every port it visits. -/
theorem checkPortsFrom_withForeign (n index : Nat) (s : Pcb)
    (h : ∀ i c, (s.res.queuingPorts i).channel = some c → own' c = true) :
    checkPortsFrom index n (s.withForeign own own' f g)
      = (checkPortsFrom index n s).withForeign own own' f g := by
  induction n generalizing index s with
  | zero => rfl
  | succ n ih =>
      unfold checkPortsFrom
      rw [show (s.withForeign own own' f g).res = s.res from rfl]
      cases hc : (s.res.queuingPorts index).channel with
      | none => rfl
      | some c =>
          dsimp only
          rw [checkPort_withForeign (h index c hc)]
          exact ih (index + 1) (s.checkPort index c) (by rw [checkPort_res]; exact h)

theorem newTick_withForeign (h : ∀ i c, (s.res.queuingPorts i).channel = some c → own' c = true) :
    (s.withForeign own own' f g).newTick = s.newTick.withForeign own own' f g := by
  unfold newTick arincTimeUpdatePartition checkAvailableResourcesOnPartitionPort
  have hlast : ({ s.withForeign own own' f g with
      lastTick := (s.withForeign own own' f g).krnl.ticks } : Pcb)
      = ({ s with lastTick := s.krnl.ticks } : Pcb).withForeign own own' f g := rfl
  rw [hlast]
  generalize ht : ({ s with lastTick := s.krnl.ticks } : Pcb) = t
  have hres : t.res = s.res := by rw [← ht]
  rw [show (t.withForeign own own' f g).krnl.uptime = t.krnl.uptime from rfl,
    forEachProcess_withForeign, forEachProcess_withForeign]
  rw [forEachProcess_eq, forEachProcess_eq]
  refine checkPortsFrom_withForeign _ 0 _ ?_
  dsimp only
  rw [hres]
  exact h

theorem requeueCurrent_withForeign :
    (s.withForeign own own' f g).requeueCurrent = s.requeueCurrent.withForeign own own' f g := by
  unfold requeueCurrent
  rw [show (s.withForeign own own' f g).processCurrent = s.processCurrent from rfl]
  cases s.processCurrent with
  | none => rfl
  | some node =>
      dsimp only
      rw [show (s.withForeign own own' f g).proc = s.proc from rfl]
      split
      · rfl
      · rfl

theorem processSchedule_withForeign :
    (s.withForeign own own' f g).processSchedule = s.processSchedule.withForeign own own' f g := by
  unfold processSchedule
  rw [requeueCurrent_withForeign]
  generalize s.requeueCurrent = t
  dsimp only
  rw [show (t.withForeign own own' f g).readyErrorHandler = t.readyErrorHandler from rfl,
    show (t.withForeign own own' f g).processes = t.processes from rfl,
    show (t.withForeign own own' f g).scheduleCandidate = t.scheduleCandidate from rfl]
  cases t.readyErrorHandler with
  | some p => rfl
  | none =>
      cases t.processes.foldl t.scheduleCandidate none with
      | none => rfl
      | some select => rfl

theorem dispatched_withForeign
    (h : ∀ i c, (s.res.queuingPorts i).channel = some c → own' c = true) :
    (s.withForeign own own' f g).dispatched = s.dispatched.withForeign own own' f g := by
  unfold dispatched
  rw [show (s.withForeign own own' f g).krnl.ticks = s.krnl.ticks from rfl,
    show (s.withForeign own own' f g).lastTick = s.lastTick from rfl]
  split
  · rw [newTick_withForeign h, processSchedule_withForeign]
  · rw [processSchedule_withForeign]

/-- The end of a service reaches the channel of the port the process waited for, or none. -/
theorem resumeContext_withForeign {p : Nat} (h : ∀ i, portOf (s.proc p).context = some i →
    ∃ c, (s.res.queuingPorts i).channel = some c ∧ own' c = true) :
    (s.withForeign own own' f g).resumeContext p
      = foreignOutcome (s.resumeContext p) own own' f g := by
  unfold resumeContext
  rw [show (s.withForeign own own' f g).proc = s.proc from rfl]
  cases hcontext : (s.proc p).context with
  | sendQueuingMessage index messageAddr length timeOut =>
      obtain ⟨c, hc, hown⟩ := h index (by rw [hcontext]; rfl)
      dsimp only
      refine refused_withForeign ?_
      rw [show (s.withForeign own own' f g).res = s.res from rfl, hc]
      dsimp only
      rw [withForeign_queuingChannels hown, setQueuingChannel_withForeign hown]
      split
      · rfl
      · rfl
  | receiveQueuingMessage index timeOut =>
      obtain ⟨c, hc, hown⟩ := h index (by rw [hcontext]; rfl)
      dsimp only
      refine refused_withForeign ?_
      rw [show (s.withForeign own own' f g).res = s.res from rfl, hc]
      dsimp only
      split
      · rw [show (s.withForeign own own' f g).modProc p (fun x => { x with timeCounter := 0 })
          = (s.modProc p fun x => { x with timeCounter := 0 }).withForeign own own' f g from rfl]
        exact takeFromChannel_withForeign hown
      · exact takeFromChannel_withForeign hown
  | waitSemaphore timed | waitEvent timed | acquireMutex timed | sendBuffer timed =>
      unfold finishWait
      dsimp only
      exact refused_withForeign rfl
  | suspendSelf => exact refused_withForeign rfl
  | stop => exact refused_withForeign rfl
  | lockPreemption | unlockPreemption =>
      unfold refreshLockLevel
      rw [show (s.withForeign own own' f g).findMutexById preemptionLockMutex
        = s.findMutexById preemptionLockMutex from rfl]
      cases s.findMutexById preemptionLockMutex with
      | none => rfl
      | some index => rfl
  | readBlackboard index timed =>
      dsimp only
      exact refused_withForeign rfl
  | receiveBuffer index timed =>
      dsimp only
      exact refused_withForeign rfl
  | raiseApplicationErrorFull error =>
      unfold raiseToErrorHandler
      dsimp only
      rw [show ((s.withForeign own own' f g).hmWriteError error).errorHandlerProcess
        = (s.hmWriteError error).errorHandlerProcess from rfl]
      cases (s.hmWriteError error).errorHandlerProcess with
      | none => rfl
      | some handler =>
          unfold wakeErrorHandler
          dsimp only
          rw [show ((s.withForeign own own' f g).hmWriteError error).proc
            = (s.hmWriteError error).proc from rfl]
          split_ifs
          · rfl
          · rfl
  | aperiodicWaitEvent =>
      unfold finishAperiodicWaitEvent
      dsimp only
      exact refused_withForeign rfl
  | _ => rfl

/-- The loop reaches the channels of the ports created, and no other. -/
theorem partitionOsLoop_withForeign (h : OwnQueuingPorts s own')
    (hresumed : ¬ Starting s → ∀ p i, portOf (s.dispatched.proc p).context = some i →
      ∃ c, (s.dispatched.res.queuingPorts i).channel = some c ∧ own' c = true) :
    (s.withForeign own own' f g).partitionOsLoop
      = foreignOutcome s.partitionOsLoop own own' f g := by
  have hports : ∀ i c, (s.res.queuingPorts i).channel = some c → own' c = true := by
    intro i c hc
    rcases Nat.lt_or_ge i s.res.queuingPortCount with hlt | hge
    · obtain ⟨c', hc', hown⟩ := h.created i hlt
      rw [hc] at hc'
      cases hc'
      exact hown
    · rw [h.unused i hge] at hc
      cases hc
  rw [partitionOsLoop_eq, partitionOsLoop_eq, dispatched_withForeign hports,
    show (s.withForeign own own' f g).status = s.status from rfl]
  split
  · rfl
  · next hmode =>
    replace hresumed := hresumed hmode
    generalize s.dispatched = t at hresumed
    rw [show (t.withForeign own own' f g).processCurrent = t.processCurrent from rfl,
      show (t.withForeign own own' f g).status = t.status from rfl]
    cases t.processCurrent with
    | none => rfl
    | some node =>
        dsimp only
        split
        · exact resumeContext_withForeign (s := { t with ctl := .process }) (hresumed node.data)
        · rfl

/-! ## No missing channel -/

/-- The outcome does not follow a null pointer: the same code executes, or the partition OS. -/
def NoCrash (s : Pcb) (o : Outcome) : Prop := o.1.ctl = s.ctl ∨ o.1.ctl = .partitionOs

theorem refused_noCrash {p : Prop} [Decidable p] {rc : ReturnCode} {o : Outcome}
    (h : NoCrash s o) : NoCrash s (if p then s.ret rc else o) := by
  by_cases hp : p
  · rw [if_pos hp]
    exact Or.inl rfl
  · rw [if_neg hp]
    exact h

theorem writeSamplingMessage_noCrash (h : OwnSamplingPorts s own) (samplingPortId : Int)
    (messageAddr : Area) (length : Int) :
    NoCrash s (s.writeSamplingMessage samplingPortId messageAddr length) := by
  unfold writeSamplingMessage
  cases hfind : s.findSamplingPortById samplingPortId with
  | none => exact Or.inl rfl
  | some index =>
      obtain ⟨c, hc, -⟩ := h index (findIndex_eq_some hfind).1
      dsimp only
      rw [hc]
      exact refused_noCrash (refused_noCrash (refused_noCrash (Or.inl rfl)))

theorem readSamplingMessage_noCrash (h : OwnSamplingPorts s own) (samplingPortId : Int) :
    NoCrash s (s.readSamplingMessage samplingPortId) := by
  unfold readSamplingMessage
  cases hfind : s.findSamplingPortById samplingPortId with
  | none => exact Or.inl rfl
  | some index =>
      obtain ⟨c, hc, -⟩ := h index (findIndex_eq_some hfind).1
      dsimp only
      rw [hc]
      exact refused_noCrash (Or.inl rfl)

theorem sendQueuingMessage_noCrash (h : OwnQueuingPorts s own') {queuingPortId : Int}
    {messageAddr : Area} {length timeOut : Int} {node : Node} (hnode : s.processCurrent = some node) :
    NoCrash s (s.sendQueuingMessage queuingPortId messageAddr length timeOut) := by
  unfold sendQueuingMessage withCurrent
  cases hfind : s.findQueuingPortById queuingPortId with
  | none => exact Or.inl rfl
  | some index =>
      obtain ⟨c, hc, -⟩ := h.created index (findIndex_eq_some hfind).1
      dsimp only
      rw [hnode]
      dsimp only
      rw [hc]
      refine refused_noCrash (refused_noCrash (refused_noCrash (refused_noCrash ?_)))
      dsimp only
      split
      · exact Or.inl rfl
      · exact refused_noCrash (refused_noCrash (Or.inr rfl))

theorem receiveQueuingMessage_noCrash (h : OwnQueuingPorts s own') {queuingPortId timeOut : Int}
    {node : Node} (hnode : s.processCurrent = some node) :
    NoCrash s (s.receiveQueuingMessage queuingPortId timeOut) := by
  unfold receiveQueuingMessage withCurrent
  cases hfind : s.findQueuingPortById queuingPortId with
  | none => exact Or.inl rfl
  | some index =>
      obtain ⟨c, hc, -⟩ := h.created index (findIndex_eq_some hfind).1
      dsimp only
      rw [hnode]
      dsimp only
      rw [hc]
      refine refused_noCrash (refused_noCrash ?_)
      dsimp only
      split
      · exact Or.inl rfl
      · exact refused_noCrash (refused_noCrash (Or.inr rfl))

theorem clearQueuingPort_noCrash (h : OwnQueuingPorts s own') (queuingPortId : Int) :
    NoCrash s (s.clearQueuingPort queuingPortId) := by
  unfold clearQueuingPort
  cases hfind : s.findQueuingPortById queuingPortId with
  | none => exact Or.inl rfl
  | some index =>
      obtain ⟨c, hc, -⟩ := h.created index (findIndex_eq_some hfind).1
      dsimp only
      rw [hc]
      exact refused_noCrash (Or.inl rfl)

/-- A process that waited for a port finds its channel. -/
theorem resumeContext_noCrash {p i c : Nat} (hi : portOf (s.proc p).context = some i)
    (hc : (s.res.queuingPorts i).channel = some c) : NoCrash s (s.resumeContext p) := by
  unfold resumeContext
  cases hcontext : (s.proc p).context with
  | sendQueuingMessage index messageAddr length timeOut =>
      rw [hcontext] at hi
      cases hi
      dsimp only
      refine refused_noCrash ?_
      rw [hc]
      dsimp only
      split
      · exact Or.inl rfl
      · exact Or.inl rfl
  | receiveQueuingMessage index timeOut =>
      rw [hcontext] at hi
      cases hi
      dsimp only
      refine refused_noCrash ?_
      rw [hc]
      dsimp only
      split
      · exact Or.inl rfl
      · exact Or.inl rfl
  | _ =>
      rw [hcontext] at hi
      cases hi

/-! ## Every later access -/

/-- The services that follow the channel of a port, and the loop, which ends those that waited. -/
def ReachesChannels : Action → Prop
  | .call (.writeSamplingMessage _ _ _) => True
  | .call (.readSamplingMessage _) => True
  | .call (.sendQueuingMessage _ _ _ _) => True
  | .call (.receiveQueuingMessage _ _) => True
  | .call (.clearQueuingPort _) => True
  | .loop => True
  | _ => False

/-- The step is the same whatever the channels of others hold, and changes none of them. -/
def LeavesForeignChannels (s : Pcb) (e : Action) (o : Outcome) : Prop :=
  ∀ f g, (s.withForeign s.ownsSamplingChannel s.ownsQueuingChannel f g).stepOutcome e
    = some (foreignOutcome o s.ownsSamplingChannel s.ownsQueuingChannel f g)

/-- A step that crashes does so for another reason than a missing channel: the entry point has called
    a service that needs a process, or the process resumed did not wait for a port. -/
def FindsItsChannel (s : Pcb) (o : Outcome) : Action → Prop
  | .loop => o.1.ctl = .crashed → ∀ c, s.dispatched.processCurrent = some c →
    portOf (s.dispatched.proc c.data).context = none
  | _ => o.1.ctl = .crashed → s.processCurrent = none

theorem PortsIsolated.ownSamplingPorts (h : PortsIsolated s) :
    OwnSamplingPorts s s.ownsSamplingChannel := by
  intro i hi
  obtain ⟨row, hrow, ⟨hid, c, hc, -⟩, hport⟩ := h.sampling i hi
  refine ⟨c, hport.channel.trans hc, ?_⟩
  exact List.any_eq_true.mpr ⟨row, hrow, decide_eq_true ⟨hid, hc⟩⟩

theorem PortsIsolated.ownQueuingPorts (h : PortsIsolated s) :
    OwnQueuingPorts s s.ownsQueuingChannel := by
  refine ⟨fun i hi => ?_, h.unused⟩
  obtain ⟨row, hrow, ⟨hid, c, hc, -⟩, hport⟩ := h.queuing i hi
  refine ⟨c, hport.channel.trans hc, ?_⟩
  exact List.any_eq_true.mpr ⟨row, hrow, decide_eq_true ⟨hid, hc⟩⟩

/-- The process a turn of the loop resumes finds the channel of the port it waited for. -/
theorem PortsIsolated.dispatched (hsound : Sound s) (h : PortsIsolated s) (hctl : s.ctl = .partitionOs)
    (hmode : ¬ Starting s) {p i : Nat} (hi : portOf (s.dispatched.proc p).context = some i) :
    ∃ c, (s.dispatched.res.queuingPorts i).channel = some c ∧ s.ownsQueuingChannel c = true := by
  obtain ⟨hconf, hports⟩ := (Moves.keep (A := ownPorts s)
    (I := fun t => SameConf s t ∧ PortsIsolated t) (fun _ _ _ ht hm => ht.2.move ht.1 hm)
    (dispatched_moves hctl hmode trivial fun _ => ⟨fun _ _ _ => trivial, fun _ _ _ => trivial, fun _ _ => trivial⟩).1
    hsound ⟨.refl s, h⟩).2
  obtain ⟨c, hc, hown⟩ := hports.ownQueuingPorts.created i (hports.resumed p i hi)
  refine ⟨c, hc, ?_⟩
  rw [← hown]
  unfold ownsQueuingChannel
  rw [hconf.systemPortTable, hconf.identifier]

/-- A service that commutes with the channels of others, and finds the channel of its port. -/
theorem access_of_exec {service : Service} {o : Outcome}
    (hforeign : ∀ f g, (s.withForeign s.ownsSamplingChannel s.ownsQueuingChannel f g).exec service
      = foreignOutcome (s.exec service) s.ownsSamplingChannel s.ownsQueuingChannel f g)
    (hcrash : ∀ node, s.processCurrent = some node → NoCrash s (s.exec service))
    (hstep : s.stepOutcome (.call service) = some o) :
    LeavesForeignChannels s (.call service) o ∧ FindsItsChannel s o (.call service) := by
  unfold stepOutcome at hstep
  dsimp only at hstep
  split at hstep
  · next hctl =>
      cases hstep
      refine ⟨fun f g => ?_, fun hcrashed => ?_⟩
      · unfold stepOutcome
        dsimp only
        rw [if_pos (show (s.withForeign _ _ f g).ctl = .process ∨ (s.withForeign _ _ f g).ctl
          = .mainProcess from hctl), hforeign]
      · cases hcur : s.processCurrent with
        | none => rfl
        | some node =>
            exfalso
            rcases hcrash node hcur with hsame | hos
            · rw [hsame] at hcrashed
              rw [hcrashed] at hctl
              rcases hctl with h | h <;> cases h
            · rw [hos] at hcrashed
              cases hcrashed
  · cases hstep

theorem PortsIsolated.access (hsound : Sound s) (h : PortsIsolated s) {e : Action} {o : Outcome}
    (he : ReachesChannels e) (hstep : s.stepOutcome e = some o) :
    LeavesForeignChannels s e o ∧ FindsItsChannel s o e := by
  cases e with
  | call service =>
      cases service with
      | writeSamplingMessage id messageAddr length =>
          exact access_of_exec (fun f g => writeSamplingMessage_withForeign h.ownSamplingPorts _ _ _)
            (fun _ _ => writeSamplingMessage_noCrash h.ownSamplingPorts _ _ _) hstep
      | readSamplingMessage id =>
          exact access_of_exec (fun f g => readSamplingMessage_withForeign h.ownSamplingPorts _)
            (fun _ _ => readSamplingMessage_noCrash h.ownSamplingPorts _) hstep
      | sendQueuingMessage id messageAddr length timeOut =>
          exact access_of_exec (fun f g => sendQueuingMessage_withForeign h.ownQueuingPorts _ _ _ _)
            (fun _ hnode => sendQueuingMessage_noCrash h.ownQueuingPorts hnode) hstep
      | receiveQueuingMessage id timeOut =>
          exact access_of_exec (fun f g => receiveQueuingMessage_withForeign h.ownQueuingPorts _ _)
            (fun _ hnode => receiveQueuingMessage_noCrash h.ownQueuingPorts hnode) hstep
      | clearQueuingPort id =>
          exact access_of_exec (fun f g => clearQueuingPort_withForeign h.ownQueuingPorts _)
            (fun _ _ => clearQueuingPort_noCrash h.ownQueuingPorts _) hstep
      | _ => cases he
  | loop =>
      unfold stepOutcome at hstep
      dsimp only at hstep
      split at hstep
      · next hctl =>
          cases hstep
          refine ⟨fun f g => ?_, fun hcrashed c hc => ?_⟩
          · unfold stepOutcome
            dsimp only
            rw [if_pos (show (s.withForeign _ _ f g).ctl = .partitionOs from hctl)]
            rw [partitionOsLoop_withForeign h.ownQueuingPorts fun hmode p i => h.dispatched hsound hctl hmode]
          · rw [partitionOsLoop_eq] at hcrashed
            split at hcrashed
            · cases hcrashed
            · next hmode =>
                rw [hc] at hcrashed
                dsimp only at hcrashed
                split at hcrashed
                · cases hport : portOf (s.dispatched.proc c.data).context with
                  | none => rfl
                  | some i =>
                      obtain ⟨channel, hchannel, -⟩ := h.dispatched hsound hctl hmode hport
                      rcases resumeContext_noCrash (s := { s.dispatched with ctl := .process }) hport
                        hchannel with hsame | hos
                      · rw [hsame] at hcrashed
                        cases hcrashed
                      · rw [hos] at hcrashed
                        cases hcrashed
                · rw [(dispatched_same hctl hmode).ctl, hctl] at hcrashed
                  cases hcrashed
      · cases hstep
  | _ => cases he

/-! ## Isolation over runs -/

/-- No port exists when `partition_OS` enters its loop. -/
theorem portsIsolated_startPartitionOs (period identifier : Int) (conf : PartitionConf)
    (maxErrors : Nat) (krnl : Krnl) (memory : Nat → Process) (lastTick : Nat) :
    PortsIsolated
      (partitionInit period identifier conf maxErrors krnl memory lastTick).startPartitionOs := by
  have hinit : PortsIsolated (partitionInit period identifier conf maxErrors krnl memory lastTick) :=
    ⟨fun i hi => absurd hi (Nat.not_lt_zero i), fun i hi => absurd hi (Nat.not_lt_zero i),
      fun _ _ => rfl, fun p i hp => by cases hp⟩
  have hsound := sound_partitionInit period identifier conf maxErrors krnl memory lastTick
  generalize partitionInit period identifier conf maxErrors krnl memory lastTick = boot at hinit hsound
  exact (Moves.keep (A := ownPorts boot) (I := fun t => SameConf boot t ∧ PortsIsolated t)
    (fun _ _ _ ht hm => ht.2.move ht.1 hm) (startPartitionOs_moves _) hsound ⟨.refl boot, hinit⟩).2.2

/-- As long as a partition creates no port from a row of the routing table that is not its own, every
    port it has created is one of its own rows' with a channel of the right kind that its messages fit,
    and no later access follows a missing channel or reaches one of another partition. -/
theorem ports_stay_isolated (period identifier : Int) (conf : PartitionConf) (maxErrors : Nat)
    (krnl : Krnl) (memory : Nat → Process) (lastTick : Nat) {es : List Action} {s : Pcb}
    (hrun : Transition.GuardedRun step CreatesOwnPorts
      (partitionInit period identifier conf maxErrors krnl memory lastTick).startPartitionOs es s) :
    PortsIsolated s ∧ ∀ e o, ReachesChannels e → s.stepOutcome e = some o →
      LeavesForeignChannels s e o ∧ FindsItsChannel s o e := by
  obtain ⟨hsound, -, hisolated⟩ := portsIsolated_of_run (sound_startPartitionOs _ _ _ _ _ _ _)
    (portsIsolated_startPartitionOs _ _ _ _ _ _ _) hrun
  exact ⟨hisolated, fun e o he hstep => hisolated.access hsound he hstep⟩

/-- Partition 1 of the default configuration creates its own port `P1_OUT_TEMP`. -/
theorem ports_stay_isolated_default :
    ∃ s, Transition.run step (defaultPartition 1)
        [.loop, .call (.createSamplingPort "P1_OUT_TEMP".toList 64 0 50)] = some s
      ∧ s.res.samplingPortCount = 1 ∧ PortsIsolated s := by
  refine ⟨_, rfl, rfl, ?_⟩
  refine (ports_stay_isolated 50 1 defaultPartitionConf 10 defaultKrnl (fun _ => zeroProcess) 0
    (.cons (e := .loop) ?_ rfl
      (.cons (e := .call (.createSamplingPort "P1_OUT_TEMP".toList 64 0 50)) ?_ rfl (.nil _)))).1
  · trivial
  intro row haccept
  obtain rfl : ⟨1, "P1_OUT_TEMP".toList, .source, 64, 0, some 0, none⟩ = row :=
    Option.some.inj haccept.row_eq
  exact ⟨rfl, 0, rfl, le_refl _⟩

/-- The routing table's partition and the kind of its channel are not looked at: partition 1 creates
    the queuing port of partition 2, and a sampling port without a channel, which a read follows. -/
theorem create_port_of_other_partition :
    (((Transition.run step (defaultPartition 1) [.loop]).bind fun s =>
        s.stepOutcome (.call (.createQueuingPort "P2_OUT_CMDS".toList 32 10 0 0))).bind fun o =>
          o.2.map Result.returnCode) = some .noError
      ∧ ((defaultPartition 1).checkPortInConfTable "P2_OUT_CMDS".toList).map PortMapping.partitionId
        = some 2
      ∧ (defaultPartition 1).status.identifier = 1
      ∧ (Transition.run step (defaultPartition 1)
        [.loop, .call (.createSamplingPort "P1_IN_CMDS".toList 32 1 50),
          .call (.readSamplingMessage 1)]).map Pcb.ctl = some .crashed := by
  refine ⟨?_, ?_, rfl, ?_⟩
  · decide
  · decide
  · decide

end Pcb

end UcxArinc
