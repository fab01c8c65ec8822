import Mathlib.Data.List.ReduceOption
import UcxArinc.Library.RoundRobin
import UcxArinc.Proofs.ProcessSelection
import UcxArinc.Proofs.RecordChanges

set_option autoImplicit false

/-! # Round robin

`TIMED_WAIT(0)` moves the node of its caller to the end of the process list, and `process_schedule`
takes the first of the processes of greatest priority. Together they make a round-robin queue of the
processes of greatest priority, whatever else the list holds between them. -/

namespace UcxArinc

namespace Pcb

variable {s s' : Pcb}

/-! ## What the loop leaves alone -/

/-- What ranks a process among the others is the same. -/
structure SameRank (x y : Process) : Prop where
  currentPriority : y.currentPriority = x.currentPriority
  rtPrio : y.rtPrio = x.rtPrio
  ownedMutexId : y.ownedMutexId = x.ownedMutexId

theorem SameRank.refl (x : Process) : SameRank x x := ⟨rfl, rfl, rfl⟩

theorem SameRank.trans {x y z : Process} (h : SameRank x y) (h' : SameRank y z) : SameRank x z :=
  ⟨h'.currentPriority.trans h.currentPriority, h'.rtPrio.trans h.rtPrio,
    h'.ownedMutexId.trans h.ownedMutexId⟩

/-- The process list and the ranks stay; a process may have become `READY`. -/
structure KeepsOrder (s s' : Pcb) : Prop where
  processes : s'.processes = s.processes
  errorHandlerProcess : s'.errorHandlerProcess = s.errorHandlerProcess
  operatingMode : s'.status.operatingMode = s.status.operatingMode
  rank : ∀ p, SameRank (s.proc p) (s'.proc p)
  state : ∀ p, (s'.proc p).processState = (s.proc p).processState
    ∨ (s'.proc p).processState = .ready

theorem KeepsOrder.refl (s : Pcb) : KeepsOrder s s :=
  ⟨rfl, rfl, rfl, fun _ => .refl _, fun _ => Or.inl rfl⟩

theorem KeepsOrder.trans {s'' : Pcb} (h : KeepsOrder s s') (h' : KeepsOrder s' s'') :
    KeepsOrder s s'' where
  processes := h'.processes.trans h.processes
  errorHandlerProcess := h'.errorHandlerProcess.trans h.errorHandlerProcess
  operatingMode := h'.operatingMode.trans h.operatingMode
  rank p := (h.rank p).trans (h'.rank p)
  state p := by
    rcases h'.state p with hsame | hready
    · rw [hsame]
      exact h.state p
    · exact Or.inr hready

/-- A process that was `READY` still is. -/
theorem KeepsOrder.ready (h : KeepsOrder s s') {p : Nat} (hp : (s.proc p).processState = .ready) :
    (s'.proc p).processState = .ready := by
  rcases h.state p with hsame | hready
  · rw [hsame, hp]
  · exact hready

/-- A pass over the processes that keeps the rank and the state of each, or readies it. -/
theorem forEachProcess_keepsOrder (s : Pcb) {f : Process → Process}
    (hf : ∀ x, SameRank x (f x)
      ∧ ((f x).processState = x.processState ∨ (f x).processState = .ready)) :
    KeepsOrder s (s.forEachProcess f) := by
  rw [forEachProcess_eq]
  refine ⟨rfl, rfl, rfl, fun p => ?_, fun p => ?_⟩
  · exact visited_rel SameRank.refl (fun _ _ _ => SameRank.trans) (fun x => (hf x).1) _ _ p
  · refine visited_rel (R := fun x y => y.processState = x.processState ∨ y.processState = .ready)
      (fun _ => Or.inl rfl) (fun x y z h h' => ?_) (fun x => (hf x).2) _ _ p
    rcases h' with hsame | hready
    · rw [hsame]
      exact h
    · exact Or.inr hready

theorem arincTimeUpdatePartition_keepsOrder (s : Pcb) : KeepsOrder s s.arincTimeUpdatePartition := by
  unfold arincTimeUpdatePartition
  refine (forEachProcess_keepsOrder s fun x => ?_).trans (forEachProcess_keepsOrder _ fun x => ?_)
  · unfold checkAndReleasePeriodicWaitingProcesses
    split_ifs
    · exact ⟨⟨rfl, rfl, rfl⟩, Or.inr rfl⟩
    · exact ⟨⟨rfl, rfl, rfl⟩, Or.inr rfl⟩
    · exact ⟨.refl x, Or.inl rfl⟩
  · unfold checkTimeouts
    split_ifs
    · exact ⟨⟨rfl, rfl, rfl⟩, Or.inr rfl⟩
    · exact ⟨.refl x, Or.inl rfl⟩

theorem wokenFirst_keepsOrder (s : Pcb) (q : WaitList) : KeepsOrder s (s.wokenFirst q) := by
  rcases wokenFirst_cases s q with ⟨-, h⟩ | ⟨p, h⟩
  · rw [h]
    exact .refl s
  · obtain ⟨rest, -, heq⟩ := wakeFirst_eq_some h
    have hproc := wakeFirst_proc h
    rw [heq] at hproc ⊢
    refine ⟨rfl, rfl, rfl, fun p' => ?_, fun p' => ?_⟩
    · rw [hproc p']
      split
      · next hp =>
          subst hp
          exact ⟨rfl, rfl, rfl⟩
      · exact .refl _
    · rw [hproc p']
      split
      · exact Or.inr rfl
      · exact Or.inl rfl

theorem checkPortsFrom_keepsOrder (n index : Nat) (s : Pcb) :
    KeepsOrder s (checkPortsFrom index n s) := by
  induction n generalizing index s with
  | zero => exact .refl s
  | succ n ih =>
      unfold checkPortsFrom
      cases hc : (s.res.queuingPorts index).channel with
      | none => exact .refl s
      | some c =>
          refine .trans ?_ (ih _ _)
          rw [checkPort_eq]
          split_ifs
          · exact (wokenFirst_keepsOrder s _).trans (wokenFirst_keepsOrder _ _)
          · exact wokenFirst_keepsOrder s _
          · exact wokenFirst_keepsOrder s _
          · exact .refl s

theorem newTick_keepsOrder (s : Pcb) : KeepsOrder s s.newTick := by
  have htick : KeepsOrder s { s with lastTick := s.krnl.ticks } :=
    ⟨rfl, rfl, rfl, fun _ => .refl _, fun _ => Or.inl rfl⟩
  unfold newTick
  exact (htick.trans (arincTimeUpdatePartition_keepsOrder _)).trans
    (checkPortsFrom_keepsOrder _ _ _)

theorem demoted_keepsOrder (s : Pcb) : KeepsOrder s s.demoted := by
  refine ⟨rfl, rfl, rfl, fun p => ?_, fun p => ?_⟩
  · unfold demoted
    dsimp only
    split_ifs
    · exact ⟨rfl, rfl, rfl⟩
    · exact .refl _
  · unfold demoted
    dsimp only
    split_ifs
    · exact Or.inr rfl
    · exact Or.inl rfl

/-- What a turn of the loop dispatches is decided in a state of the same order. -/
theorem dispatched_decides (s : Pcb) : ∃ t selected current, KeepsOrder s t
    ∧ t.Decides selected current ∧ s.dispatched = t.running selected current := by
  have htick : KeepsOrder s (if s.krnl.ticks ≠ s.lastTick then s.newTick else s) := by
    split_ifs
    · exact newTick_keepsOrder s
    · exact .refl s
  unfold dispatched
  obtain ⟨selected, current, hdecides, heq⟩ :=
    processSchedule_decides (if s.krnl.ticks ≠ s.lastTick then s.newTick else s)
  exact ⟨_, selected, current, htick.trans (demoted_keepsOrder _), hdecides, heq⟩

/-! ## The rest of a service -/

/-- What the process dispatched does before it returns from the service it yielded in: control may
    leave it only to the error handler. -/
structure RunsOn (t : Pcb) (o : Outcome) : Prop where
  order : KeepsOrder t o.1
  processCurrent : o.1.processCurrent = t.processCurrent
  control : o.1.ctl = t.ctl ∨ o.1.ctl = .crashed
    ∨ ∃ h, o.1.errorHandlerProcess = some h ∧ (o.1.proc h).processState = .ready
  state : ∀ p, (o.1.proc p).processState = (t.proc p).processState
    ∨ (o.1.proc p).processState = .ready ∧ o.1.errorHandlerProcess = some p

/-- The service returns, or crashes, and no process changes its state. -/
theorem RunsOn.of_state {t u : Pcb} {r : Option Result} (h : KeepsOrder t u)
    (hcurrent : u.processCurrent = t.processCurrent) (hctl : u.ctl = t.ctl ∨ u.ctl = .crashed)
    (hstate : ∀ p, (u.proc p).processState = (t.proc p).processState) : RunsOn t (u, r) where
  order := h
  processCurrent := hcurrent
  control := by
    rcases hctl with hctl | hctl
    · exact Or.inl hctl
    · exact Or.inr (Or.inl hctl)
  state p := Or.inl (hstate p)

/-- Only resources, channels or counters change. -/
theorem RunsOn.of_proc {t u : Pcb} {r : Option Result} (hproc : u.proc = t.proc)
    (hprocesses : u.processes = t.processes) (hhandler : u.errorHandlerProcess = t.errorHandlerProcess)
    (hmode : u.status.operatingMode = t.status.operatingMode)
    (hcurrent : u.processCurrent = t.processCurrent) (hctl : u.ctl = t.ctl ∨ u.ctl = .crashed) :
    RunsOn t (u, r) := by
  refine .of_state ⟨hprocesses, hhandler, hmode, fun p => ?_, fun p => ?_⟩ hcurrent hctl fun p => ?_
  · rw [hproc]
    exact .refl _
  · rw [hproc]
    exact Or.inl rfl
  · rw [hproc]

theorem RunsOn.refl (t : Pcb) (r : Option Result) : RunsOn t (t, r) :=
  .of_proc rfl rfl rfl rfl rfl (Or.inl rfl)

/-- One record changes, but not in rank or state. -/
theorem RunsOn.modProc {t u : Pcb} {r r' : Option Result} {p : Nat} {f : Process → Process}
    (h : RunsOn t (u, r)) (hrank : ∀ x, SameRank x (f x))
    (hstate : ∀ x, (f x).processState = x.processState) : RunsOn t (u.modProc p f, r') := by
  have hsame : ∀ p', ((u.modProc p f).proc p').processState = (u.proc p').processState := by
    intro p'
    rw [modProc_proc]
    split
    · next hp => rw [hp, hstate]
    · rfl
  refine ⟨h.order.trans ⟨rfl, rfl, rfl, fun p' => ?_, fun p' => Or.inl (hsame p')⟩,
    h.processCurrent, ?_, fun p' => ?_⟩
  · rw [modProc_proc]
    split
    · next hp =>
        subst hp
        exact hrank _
    · exact .refl _
  · rcases h.control with hctl | hctl | ⟨e, he, hready⟩
    · exact Or.inl hctl
    · exact Or.inr (Or.inl hctl)
    · exact Or.inr (Or.inr ⟨e, he, (hsame e).trans hready⟩)
  · rw [hsame p']
    exact h.state p'

/-- `RAISE_APPLICATION_ERROR` that finds room in the error list. -/
theorem raiseToErrorHandler_resumes (t : Pcb) (p : Nat) (error : ErrorStatus) :
    RunsOn t (t.raiseToErrorHandler p error) := by
  unfold raiseToErrorHandler
  dsimp only
  have hwritten : KeepsOrder t (t.hmWriteError error) :=
    ⟨rfl, rfl, rfl, fun _ => .refl _, fun _ => Or.inl rfl⟩
  split
  · exact .of_proc rfl rfl rfl rfl rfl (Or.inr rfl)
  · next e he =>
      unfold wakeErrorHandler
      split_ifs with hasleep
      · -- the handler is started, and the caller yields to it
        dsimp only
        have hstate : ∀ p', (((t.hmWriteError error).modProc e fun x => { x with
            processState := .ready, context := .entry }).yieldToPartition p
            .raiseApplicationError).1.proc p' =
            { (t.proc p') with
              processState := if p' = e then .ready else (t.proc p').processState
              context := if p' = p then .raiseApplicationError
                else if p' = e then .entry else (t.proc p').context } := by
          intro p'
          unfold yieldToPartition toPartitionOs
          dsimp only
          rw [modProc_proc, modProc_proc, modProc_proc]
          by_cases hp : p' = p
          · subst hp
            by_cases hpe : p' = e
            · subst hpe
              simp [hmWriteError]
            · simp [hpe, hmWriteError]
          · by_cases hpe : p' = e
            · subst hpe
              simp [hp, hmWriteError]
            · simp [hp, hpe, hmWriteError]
        refine ⟨⟨rfl, rfl, rfl, fun p' => ?_, fun p' => ?_⟩, rfl, Or.inr (Or.inr ⟨e, he, ?_⟩),
          fun p' => ?_⟩
        · rw [hstate p']
          exact ⟨rfl, rfl, rfl⟩
        · rw [hstate p']
          dsimp only
          split_ifs
          · exact Or.inr rfl
          · exact Or.inl rfl
        · rw [hstate e]
          exact if_pos rfl
        · rw [hstate p']
          dsimp only
          split_ifs with hp
          · rw [hp]
            exact Or.inr ⟨rfl, he⟩
          · exact Or.inl rfl
      · exact .of_proc rfl rfl rfl rfl rfl (Or.inl rfl)

/-- The rest of the service a process yielded in. -/
theorem resumeContext_runsOn (t : Pcb) (p : Nat) : RunsOn t (t.resumeContext p) := by
  have hite : ∀ {c : Prop} [Decidable c] {o o' : Outcome}, RunsOn t o → RunsOn t o' →
      RunsOn t (if c then o else o') := by
    intro c _ o o' h h'
    split
    · exact h
    · exact h'
  have hfinish : ∀ timed, RunsOn t (t.finishWait p timed) := by
    intro timed
    exact hite (.refl t _) (.refl t _)
  have hlock : ∀ rc, RunsOn t (t.refreshLockLevel rc) := by
    intro rc
    unfold refreshLockLevel
    dsimp only
    split
    · exact .refl t _
    · exact .of_proc rfl rfl rfl rfl rfl (Or.inl rfl)
  unfold resumeContext
  cases (t.proc p).context with
  | entry | setPriority | resume | start | delayedStart | timedWait | periodicWait
  | displayBlackboard | sendBufferDone | signalSemaphore | setEvent | releaseMutex | resetMutex
  | raiseApplicationError => exact .refl t _
  | suspendSelf => exact hfinish true
  | stop => exact hite (.refl t _) (.refl t _)
  | lockPreemption | unlockPreemption => exact hlock _
  | waitSemaphore timed | waitEvent timed | acquireMutex timed | sendBuffer timed =>
      exact hfinish timed
  | readBlackboard index timed => exact hite (.refl t _) (.refl t _)
  | receiveBufferDone index message length => exact .of_proc rfl rfl rfl rfl rfl (Or.inl rfl)
  | receiveBuffer index timed =>
      exact hite (.refl t _) (.of_proc rfl rfl rfl rfl rfl (Or.inl rfl))
  | aperiodicWaitEvent =>
      refine hite (.refl t _) ?_
      exact RunsOn.modProc (.refl t none) (fun _ => ⟨rfl, rfl, rfl⟩) fun _ => rfl
  | sendQueuingMessage index messageAddr length timeOut =>
      refine hite (.refl t _) ?_
      split
      · exact .of_proc rfl rfl rfl rfl rfl (Or.inr rfl)
      · next c hc =>
          have hsent : RunsOn t (t.setQueuingChannel c
              ((t.krnl.queuingChannels c).channelEnqueue messageAddr length), none) :=
            .of_proc rfl rfl rfl rfl rfl (Or.inl rfl)
          dsimp only [ret]
          split
          · exact hsent.modProc (fun _ => ⟨rfl, rfl, rfl⟩) fun _ => rfl
          · exact .of_proc rfl rfl rfl rfl rfl (Or.inl rfl)
  | receiveQueuingMessage index timeOut =>
      refine hite (.refl t _) ?_
      split
      · exact .of_proc rfl rfl rfl rfl rfl (Or.inr rfl)
      · next c hc =>
          unfold takeFromChannel
          dsimp only
          split
          · have hreset : RunsOn t (t.modProc p fun x => { x with timeCounter := 0 }, none) :=
              RunsOn.modProc (.refl t none) (fun _ => ⟨rfl, rfl, rfl⟩) fun _ => rfl
            exact ⟨hreset.order.trans ⟨rfl, rfl, rfl, fun _ => .refl _, fun _ => Or.inl rfl⟩,
              hreset.processCurrent, hreset.control, hreset.state⟩
          · exact .of_proc rfl rfl rfl rfl rfl (Or.inl rfl)
  | raiseApplicationErrorFull error => exact raiseToErrorHandler_resumes t p error

/-! ## The queue of the processes of greatest priority -/

/-- The processes `robin` have the same priority and no mutex, and the process list holds them in the
    order of `queue`. None of them is the error handler, which may not wait any more than the owner of
    a mutex may. -/
structure Robin (s : Pcb) (robin queue : List Nat) (priority : Int) : Prop where
  order : (s.processes.filter fun n => decide (n.data ∈ robin)).map Node.data = queue
  currentPriority : ∀ p ∈ robin, (s.proc p).currentPriority = priority
  rtPrio : ∀ p ∈ robin, (s.proc p).rtPrio = 0
  noMutex : ∀ p ∈ robin, (s.proc p).ownedMutexId = noMutexOwned
  notHandler : ∀ p ∈ robin, s.errorHandlerProcess ≠ some p
  operatingMode : s.status.operatingMode = .normal

/-- All of them wait for their turn, and the partition OS is about to choose. -/
structure Robin.Waits (s : Pcb) (robin queue : List Nat) (priority : Int) : Prop
    extends Robin s robin queue priority where
  control : s.ctl = .partitionOs
  ready : ∀ p ∈ robin, (s.proc p).processState = .ready

/-- The head of the queue has its turn. -/
structure Robin.Turn (s : Pcb) (robin queue : List Nat) (priority : Int) : Prop
    extends Robin s robin queue priority where
  control : s.ctl = .process ∨ s.ctl = .crashed
  head : ∃ node, s.processCurrent = some node ∧ node ∈ s.processes ∧ queue.head? = some node.data
  ready : ∀ p ∈ robin, queue.head? ≠ some p → (s.proc p).processState = .ready

/-- No other process of that priority or a greater one is ready to run, and neither is the error
    handler. -/
def NoRival (robin : List Nat) (priority : Int) (s : Pcb) : Prop :=
  ∀ p, p ∉ robin → Active (s.proc p).processState →
    s.errorHandlerProcess ≠ some p
      ∧ ((∃ n ∈ s.processes, n.data = p) → (s.proc p).currentPriority < priority)

variable {robin queue : List Nat} {priority : Int}

theorem Robin.of_keepsOrder (h : Robin s robin queue priority) (hkeeps : KeepsOrder s s') :
    Robin s' robin queue priority where
  order := by rw [hkeeps.processes]; exact h.order
  currentPriority p hp := (hkeeps.rank p).currentPriority.trans (h.currentPriority p hp)
  rtPrio p hp := (hkeeps.rank p).rtPrio.trans (h.rtPrio p hp)
  noMutex p hp := (hkeeps.rank p).ownedMutexId.trans (h.noMutex p hp)
  notHandler p hp := by rw [hkeeps.errorHandlerProcess]; exact h.notHandler p hp
  operatingMode := hkeeps.operatingMode.trans h.operatingMode

/-- The processes of the queue are those of `robin` that are linked. -/
theorem Robin.mem_queue (h : Robin s robin queue priority) {p : Nat} :
    p ∈ queue ↔ p ∈ robin ∧ ∃ n ∈ s.processes, n.data = p := by
  rw [← h.order]
  simp only [List.mem_map, List.mem_filter, decide_eq_true_eq]
  constructor
  · rintro ⟨n, ⟨hn, hrobin⟩, rfl⟩
    exact ⟨hrobin, n, hn, rfl⟩
  · rintro ⟨hrobin, n, hn, rfl⟩
    exact ⟨n, ⟨hn, hrobin⟩, rfl⟩

/-- The first of the processes of greatest priority is the head of the queue, if it is one of
    `robin`. -/
theorem Robin.head_eq_some (h : Robin s robin queue priority)
    (hready : ∀ p ∈ robin, (s.proc p).processState = .ready) {select : Node}
    (hfirst : s.FirstOfGreatest s.processes select) (hselect : select.data ∈ robin) :
    queue.head? = some select.data := by
  obtain ⟨before, after, hsplit, hbefore, -⟩ := hfirst.first
  have hnone : before.filter (fun n => decide (n.data ∈ robin)) = [] := by
    refine List.filter_eq_nil_iff.mpr fun n hn hrobin => ?_
    have hrobin : n.data ∈ robin := by simpa using hrobin
    -- it would be selectable, and no process before the one selected has its priority
    have hfloor := hfirst.selectable.2.2
    rw [h.currentPriority _ hselect, ← h.currentPriority _ hrobin] at hfloor
    have hlt := hbefore n hn ⟨hready _ hrobin, h.rtPrio _ hrobin, hfloor⟩
    rw [h.currentPriority _ hselect, h.currentPriority _ hrobin] at hlt
    exact lt_irrefl _ hlt
  rw [← h.order, hsplit, List.filter_append, hnone]
  simp [hselect]

/-! ## A turn of the loop -/

/-- Where the process list has a process of `robin`, nobody else is selected unless it is a rival. -/
theorem Robin.select_mem (h : Robin s robin queue priority) (hqueue : queue ≠ [])
    (hready : ∀ p ∈ robin, (s.proc p).processState = .ready) {select : Node}
    (hfirst : s.FirstOfGreatest s.processes select)
    (hlower : select.data ∉ robin → (s.proc select.data).currentPriority < priority) :
    select.data ∈ robin := by
  by_contra hnot
  have hlt := hlower hnot
  obtain ⟨p, hp⟩ := List.exists_mem_of_ne_nil _ hqueue
  obtain ⟨hrobin, n, hn, rfl⟩ := h.mem_queue.mp hp
  have hfloor := hfirst.selectable.2.2
  have hprio := h.currentPriority _ hrobin
  have hle := hfirst.greatest hn ⟨hready _ hrobin, h.rtPrio _ hrobin, by omega⟩
  omega

/-- The process list has a process of `robin`; if no process is selectable, their priority is
    negative. -/
theorem Robin.priority_neg (h : Robin s robin queue priority) (hqueue : queue ≠ [])
    (hready : ∀ p ∈ robin, (s.proc p).processState = .ready)
    (hnone : ∀ n ∈ s.processes, ¬ s.Selectable n) : priority < 0 := by
  obtain ⟨p, hp⟩ := List.exists_mem_of_ne_nil _ hqueue
  obtain ⟨hrobin, n, hn, rfl⟩ := h.mem_queue.mp hp
  by_contra hfloor
  have hprio := h.currentPriority _ hrobin
  exact hnone n hn ⟨hready _ hrobin, h.rtPrio _ hrobin, by omega⟩

/-- The step lemma of the loop: it dispatches the head of the queue, unless the priority is negative. -/
theorem Robin.Waits.loop (h : Robin.Waits s robin queue priority) (hqueue : queue ≠ [])
    (hcalm : NoRival robin priority s.partitionOsLoop.1) :
    (Robin.Turn s.partitionOsLoop.1 robin queue priority
        ∧ s.partitionOsLoop.1.processCurrent.map Node.data = queue.head?)
      ∨ (priority < 0 ∧ s.partitionOsLoop.1.processCurrent = none
        ∧ Robin.Waits s.partitionOsLoop.1 robin queue priority) := by
  have hnormal := h.operatingMode
  have hnot : ¬ Starting s := by
    unfold Starting
    simp [hnormal]
  obtain ⟨t, selected, current, hkeeps, hdecides, hdispatched⟩ := dispatched_decides s
  have hsame := dispatched_same h.control hnot
  have ht := h.toRobin.of_keepsOrder hkeeps
  have hready : ∀ p ∈ robin, (t.proc p).processState = .ready := fun p hp => hkeeps.ready (h.ready p hp)
  have hmode : s.dispatched.status.operatingMode = .normal := by
    rw [hsame.status]
    exact hnormal
  have hctl : s.dispatched.ctl = .partitionOs := hsame.ctl.trans h.control
  unfold Starting at hnot
  rw [partitionOsLoop_eq, if_neg hnot] at hcalm ⊢
  -- whoever is selected is still active when the turn is over
  have hrunning : ∀ p, selected = some p → ∀ node,
      Active (((({ s.dispatched with ctl := .process } : Pcb).resumeContext node).1.proc p).processState) := by
    intro p hp node
    have hself : (s.dispatched.proc p).processState = .running := by
      rw [hdispatched, running, hp]
      simp
    rcases (resumeContext_runsOn { s.dispatched with ctl := .process } node).state p with hstate | hstate
    · rw [hstate]
      exact Or.inr hself
    · exact Or.inl hstate.1
  cases hdecides with
  | @errorHandler p hhandler hhready =>
      exfalso
      have hp : p ∉ robin := fun hmem => ht.notHandler p hmem hhandler
      have hhandler' : s.dispatched.errorHandlerProcess = some p := by
        rw [hdispatched]
        exact hhandler
      cases hcurrent : s.dispatched.processCurrent with
      | none =>
          rw [hcurrent] at hcalm
          refine (hcalm p hp ?_).1 hhandler'
          rw [hdispatched, running]
          exact Or.inr (by simp)
      | some node =>
          rw [hcurrent] at hcalm
          dsimp only at hcalm
          rw [if_pos hmode] at hcalm
          refine (hcalm p hp (hrunning p rfl node.data)).1 ?_
          rw [(resumeContext_runsOn { s.dispatched with ctl := .process } node.data).order.errorHandlerProcess]
          exact hhandler'
  | @process select hhandler hfirst =>
      have hcurrent : s.dispatched.processCurrent = some select := by
        rw [hdispatched]
        rfl
      have hlist : s.dispatched.processes = t.processes := by
        rw [hdispatched]
        rfl
      have hresumes := resumeContext_runsOn { s.dispatched with ctl := .process } select.data
      rw [hcurrent] at hcalm ⊢
      dsimp only at hcalm ⊢
      rw [if_pos hmode] at hcalm ⊢
      have hrank : ∀ p, SameRank (t.proc p) (s.dispatched.proc p) := by
        intro p
        rw [hdispatched, running]
        dsimp only
        split_ifs
        · exact ⟨rfl, rfl, rfl⟩
        · exact .refl _
      have hselect : select.data ∈ robin := by
        refine ht.select_mem hqueue hready hfirst fun hnot => ?_
        have hlower := (hcalm select.data hnot (hrunning _ rfl _)).2 ⟨select, ?_, rfl⟩
        · rw [(hresumes.order.rank _).currentPriority] at hlower
          rw [← (hrank select.data).currentPriority]
          exact hlower
        · rw [hresumes.order.processes]
          exact hlist ▸ hfirst.mem
      have hhead := ht.head_eq_some hready hfirst hselect
      have hd : Robin s.dispatched robin queue priority := by
        refine ⟨?_, fun p hp => ?_, fun p hp => ?_, fun p hp => ?_, fun p hp => ?_, hmode⟩
        · rw [hlist]
          exact ht.order
        · exact (hrank p).currentPriority.trans (ht.currentPriority p hp)
        · exact (hrank p).rtPrio.trans (ht.rtPrio p hp)
        · exact (hrank p).ownedMutexId.trans (ht.noMutex p hp)
        · rw [hdispatched]
          exact ht.notHandler p hp
      have hafter : Robin ({ s.dispatched with ctl := .process } : Pcb) robin queue priority :=
        ⟨hd.order, hd.currentPriority, hd.rtPrio, hd.noMutex, hd.notHandler, hd.operatingMode⟩
      refine Or.inl ⟨⟨hafter.of_keepsOrder hresumes.order, ?_, ⟨select, ?_, ?_, hhead⟩, fun p hp hother => ?_⟩, ?_⟩
      · -- control has not come back to the partition OS: only a start of the error handler does that
        rcases hresumes.control with hctl | hctl | ⟨e, he, hready⟩
        · exact Or.inl hctl
        · exact Or.inr hctl
        · have hnot : e ∉ robin := fun hmem =>
            (hafter.of_keepsOrder hresumes.order).notHandler e hmem he
          exact absurd he (hcalm e hnot (Or.inl hready)).1
      · exact hresumes.processCurrent.trans hcurrent
      · rw [hresumes.order.processes]
        exact hlist ▸ hfirst.mem
      · refine hresumes.order.ready ?_
        show (s.dispatched.proc p).processState = .ready
        have hne : select.data ≠ p := by
          rintro rfl
          exact hother hhead
        rw [hdispatched, running]
        simp [hne, hready p hp]
      · rw [hresumes.processCurrent, hhead]
        exact congrArg (Option.map Node.data) hcurrent
  | nobody hhandler hnone =>
      have hcurrent : s.dispatched.processCurrent = none := by
        rw [hdispatched]
        rfl
      rw [hcurrent]
      have hsame : s.dispatched = { t with processCurrent := none } := by
        rw [hdispatched, running]
        simp
      refine Or.inr ⟨ht.priority_neg hqueue hready hnone, hcurrent, ⟨?_, hctl, ?_⟩⟩
      · rw [hsame]
        exact ⟨ht.order, ht.currentPriority, ht.rtPrio, ht.noMutex, ht.notHandler, ht.operatingMode⟩
      · rw [hsame]
        exact hready

/-! ## A wait -/

/-- Moving the node of the head to the end of the list moves the head to the end of the queue. -/
theorem filter_moved {nodes : List Node} {node new : Node} {rest : List Nat}
    (h : (nodes.filter fun n => decide (n.data ∈ robin)).map Node.data = node.data :: rest)
    (hnodup : (node.data :: rest).Nodup) (hnode : node ∈ nodes) (hnew : new.data = node.data)
    (hmem : node.data ∈ robin) :
    ((nodes.erase node ++ [new]).filter fun n => decide (n.data ∈ robin)).map Node.data
      = rest ++ [node.data] := by
  obtain ⟨before, after, -, hsplit, herase⟩ := List.exists_erase_eq hnode
  rw [hsplit, List.filter_append, List.filter_cons, if_pos (by simpa using hmem), List.map_append,
    List.map_cons] at h
  have hnone : before.filter (fun n => decide (n.data ∈ robin)) = [] := by
    cases hbefore : before.filter (fun n => decide (n.data ∈ robin)) with
    | nil => rfl
    | cons m ms =>
        -- the head would come twice
        rw [hbefore, List.map_cons, List.cons_append, List.cons.injEq] at h
        obtain ⟨-, htail⟩ := h
        refine absurd ?_ (List.nodup_cons.mp hnodup).1
        rw [← htail]
        simp
  rw [hnone, List.map_nil, List.nil_append, List.cons.injEq] at h
  rw [herase, List.filter_append, List.filter_append, hnone, List.nil_append, List.map_append, h.2]
  simp [hnew, hmem]

/-- `TIMED_WAIT(0)` puts the current process behind all the others and makes it ready. -/
theorem timedWait_zero {node : Node} (hcurrent : s.processCurrent = some node)
    (hcan : s.cannotBlock node.data = false) (hvalid : ¬ s.timeOutInvalid 0 = true) :
    (s.timedWait 0).1.processes = s.processes.erase node ++ [⟨s.nextNode, node.data⟩]
      ∧ (s.timedWait 0).1.errorHandlerProcess = s.errorHandlerProcess
      ∧ (s.timedWait 0).1.status = s.status ∧ (s.timedWait 0).1.ctl = .partitionOs
      ∧ ∀ p, (s.timedWait 0).1.proc p = if p = node.data then
          { s.proc p with processState := .ready, context := .timedWait } else s.proc p := by
  unfold timedWait withCurrent
  rw [hcurrent]
  dsimp only
  rw [if_neg (by rw [hcan]; exact Bool.false_ne_true), if_neg hvalid, if_neg (by decide), if_pos rfl]
  unfold yieldToPartition toPartitionOs setCurrent listPushback listRemove
  dsimp only
  refine ⟨rfl, rfl, rfl, rfl, fun p => ?_⟩
  rw [modProc_proc]
  split
  · next hp =>
      subst hp
      dsimp only
      rw [modProc_proc_self]
  · next hp =>
      dsimp only
      rw [modProc_proc_of_ne hp]

/-- The step lemma of `TIMED_WAIT(0)`: it is refused, or the head goes to the end of the queue. -/
theorem Robin.Turn.wait (h : Robin.Turn s robin queue priority) (hnodup : queue.Nodup)
    (hstep : s.step (.call (.timedWait 0)) = some s') :
    s' = s ∨ Robin.Waits s' robin (queue.rotate 1) priority := by
  obtain ⟨node, hcurrent, hlinked, hhead⟩ := h.head
  obtain ⟨rest, rfl⟩ : ∃ rest, queue = node.data :: rest := by
    cases queue with
    | nil => simp at hhead
    | cons a rest => exact ⟨rest, by rw [Option.some.inj hhead]⟩
  have hrobin : node.data ∈ robin := (h.toRobin.mem_queue.mp List.mem_cons_self).1
  have hcan : s.cannotBlock node.data = false := by
    unfold cannotBlock
    simp [h.noMutex _ hrobin, h.notHandler _ hrobin]
  obtain ⟨-, rfl⟩ := call_eq_some hstep
  by_cases hoverflow : s.timeOutInvalid 0 = true
  · left
    unfold exec timedWait withCurrent
    rw [hcurrent]
    dsimp only
    rw [if_neg (by rw [hcan]; exact Bool.false_ne_true), if_pos hoverflow]
    rfl
  · right
    obtain ⟨hprocesses, hhandler, hstatus, hctl, hproc⟩ := timedWait_zero hcurrent hcan hoverflow
    unfold exec
    have hrank : ∀ p, SameRank (s.proc p) ((s.timedWait 0).1.proc p) := by
      intro p
      rw [hproc p]
      split_ifs
      · exact ⟨rfl, rfl, rfl⟩
      · exact .refl _
    refine ⟨⟨?_, fun p hp => ?_, fun p hp => ?_, fun p hp => ?_, fun p hp => ?_, ?_⟩, hctl, fun p hp => ?_⟩
    · rw [List.rotate_cons_succ, List.rotate_zero, hprocesses]
      exact filter_moved h.order hnodup hlinked rfl hrobin
    · exact (hrank p).currentPriority.trans (h.currentPriority p hp)
    · exact (hrank p).rtPrio.trans (h.rtPrio p hp)
    · exact (hrank p).ownedMutexId.trans (h.noMutex p hp)
    · rw [hhandler]
      exact h.notHandler p hp
    · rw [hstatus]
      exact h.operatingMode
    · rw [hproc p]
      split_ifs with hself
      · rfl
      · refine h.ready p hp fun heq => ?_
        exact hself (Option.some.inj heq).symm

/-! ## Runs -/

/-- A step of a run in which the processes of `robin` only wait, and no rival gets ready. -/
structure RoundRobinStep (robin : List Nat) (priority : Int) (s : Pcb) (e : Action) : Prop where
  waits : ∀ service, e = .call service → service = .timedWait 0
  noFault : ∀ errorCode messageAddr length, e ≠ .fault errorCode messageAddr length
  calm : ∀ s', s.step e = some s' → NoRival robin priority s'

/-- The processes the turns of the loop have dispatched: `none` where a turn has dispatched nobody. -/
def addTurn (turns : List (Option Nat)) (s : Pcb) : Action → List (Option Nat)
  | .loop => turns ++ [s.partitionOsLoop.1.processCurrent.map Node.data]
  | _ => turns

/-- The invariant of a run: so far the turns have gone round the queue. -/
structure GoneRound (robin : List Nat) (priority : Int) (s : Pcb) (turns : List (Option Nat)) : Prop where
  round : RoundRobin.GoesRound robin turns.reduceOption
  all : 0 ≤ priority → none ∉ turns
  phase : Robin.Waits s robin (robin.rotate turns.reduceOption.length) priority
    ∨ ∃ k, turns.reduceOption.length = k + 1 ∧ Robin.Turn s robin (robin.rotate k) priority

theorem Robin.afterKernel (h : Robin s robin queue priority) (uptime ticks windowsIdx majorFrameCount : Nat)
    (samplingChannels : Nat → SamplingChannel) (queuingChannels : Nat → QueuingChannel) :
    Robin (s.afterKernel uptime ticks windowsIdx majorFrameCount samplingChannels queuingChannels)
      robin queue priority :=
  ⟨h.order, h.currentPriority, h.rtPrio, h.noMutex, h.notHandler, h.operatingMode⟩

/-- A turn of the loop adds the next of the queue, or nobody. -/
theorem GoneRound.loop {turns : List (Option Nat)} (h : GoneRound robin priority s turns)
    (hne : robin ≠ []) (hcalm : NoRival robin priority s.partitionOsLoop.1)
    (hctl : s.ctl = .partitionOs) :
    GoneRound robin priority s.partitionOsLoop.1 (addTurn turns s .loop) := by
  obtain ⟨hround, hall, hwaits | ⟨k, -, hturn⟩⟩ := h
  · have hqueue : robin.rotate turns.reduceOption.length ≠ [] := by
      intro hnil
      exact hne (List.rotate_eq_nil_iff.mp hnil)
    unfold addTurn
    rcases hwaits.loop hqueue hcalm with ⟨hturn, hhead⟩ | ⟨hneg, hnobody, hwaits⟩
    · obtain ⟨node, hcurrent, -, -⟩ := hturn.head
      rw [hcurrent, Option.map_some] at hhead ⊢
      have hadded : (turns ++ [some node.data]).reduceOption = turns.reduceOption ++ [node.data] := by
        simp [List.reduceOption_append]
      refine ⟨?_, fun hfloor hmem => ?_, Or.inr ⟨turns.reduceOption.length, ?_, hturn⟩⟩
      · dsimp only
        rw [hadded]
        exact hround.snoc hhead.symm
      · rcases List.mem_append.mp hmem with hmem | hmem
        · exact hall hfloor hmem
        · simp at hmem
      · dsimp only
        rw [hadded]
        simp
    · rw [hnobody, Option.map_none]
      have hsame : (turns ++ [none]).reduceOption = turns.reduceOption := by
        simp [List.reduceOption_append]
      refine ⟨?_, fun hfloor => absurd hfloor (by omega), Or.inl ?_⟩
      · dsimp only
        rw [hsame]
        exact hround
      · dsimp only
        rw [hsame]
        exact hwaits
  · rcases hturn.control with h | h
    · cases h.symm.trans hctl
    · cases h.symm.trans hctl

/-- The step lemma. -/
theorem GoneRound.step {turns : List (Option Nat)} {e : Action} (h : GoneRound robin priority s turns)
    (hnodup : robin.Nodup) (hne : robin ≠ []) (hok : RoundRobinStep robin priority s e)
    (hstep : s.step e = some s') : GoneRound robin priority s' (addTurn turns s e) := by
  cases e with
  | call service =>
      obtain rfl := hok.waits service rfl
      obtain ⟨hround, hall, hwaits | ⟨k, hk, hturn⟩⟩ := h
      · rcases (call_eq_some hstep).1 with hctl | hctl
        · rw [hwaits.control] at hctl
          cases hctl
        · rw [hwaits.control] at hctl
          cases hctl
      · rcases hturn.wait (List.nodup_rotate.mpr hnodup) hstep with rfl | hwaits
        · exact ⟨hround, hall, Or.inr ⟨k, hk, hturn⟩⟩
        · rw [List.rotate_rotate, ← hk] at hwaits
          exact ⟨hround, hall, Or.inl hwaits⟩
  | fault errorCode messageAddr length => exact absurd rfl (hok.noFault errorCode messageAddr length)
  | mainReturn =>
      unfold Pcb.step stepOutcome at hstep
      dsimp only at hstep
      by_cases hmain : s.ctl = .mainProcess
      · obtain ⟨hround, hall, hwaits | ⟨k, hk, hturn⟩⟩ := h
        · rw [hwaits.control] at hmain
          cases hmain
        · rcases hturn.control with hctl | hctl
          · cases hctl.symm.trans hmain
          · cases hctl.symm.trans hmain
      · rw [if_neg hmain] at hstep
        cases hstep
  | loop =>
      obtain ⟨hctl, rfl⟩ := loop_eq_some hstep
      exact h.loop hne (hok.calm _ hstep) hctl
  | kernel uptime ticks windowsIdx majorFrameCount samplingChannels queuingChannels =>
      unfold Pcb.step stepOutcome at hstep
      dsimp only at hstep
      by_cases hlater : s.krnl.uptime ≤ uptime
      · rw [if_pos hlater] at hstep
        cases hstep
        obtain ⟨hround, hall, hwaits | ⟨k, hk, hturn⟩⟩ := h
        · exact ⟨hround, hall, Or.inl ⟨hwaits.toRobin.afterKernel _ _ _ _ _ _, hwaits.control, hwaits.ready⟩⟩
        · exact ⟨hround, hall, Or.inr ⟨k, hk, hturn.toRobin.afterKernel _ _ _ _ _ _, hturn.control, hturn.head,
            hturn.ready⟩⟩
      · rw [if_neg hlater] at hstep
        cases hstep

/-- Round robin: the turns of the loop go round the processes of greatest priority that only call
    `TIMED_WAIT(0)`, in the order in which the process list holds them; each turn dispatches one of them,
    and between two runs of one each other runs exactly once. -/
theorem timedWait_round_robin {es : List Action} (hnodup : robin.Nodup) (hne : robin ≠ [])
    (hstart : Robin.Waits s robin robin priority)
    (hrun : Transition.GuardedRun step (RoundRobinStep robin priority) s es s') :
    let turns := Transition.record step addTurn [] s es
    let runs := turns.reduceOption
    RoundRobin.GoesRound robin runs
      ∧ (0 ≤ priority → none ∉ turns)
      ∧ ∀ (i j p : Nat), i < j → runs[i]? = some p → runs[j]? = some p →
        (∀ k, i < k → k < j → runs[k]? ≠ some p) →
        ∀ q ∈ robin, q ≠ p → ∃! k, i < k ∧ k < j ∧ runs[k]? = some q := by
  intro turns runs
  have hgone : GoneRound robin priority s' turns := by
    refine hrun.record_invariant (fun t e t' b hI hok hstep => hI.step hnodup hne hok hstep)
      ⟨.nil robin, fun _ => by simp, Or.inl ?_⟩
    rw [List.reduceOption_nil, List.length_nil, List.rotate_zero]
    exact hstart
  refine ⟨hgone.round, hgone.all, fun i j p hij hi hj hnone q hq hqp => ?_⟩
  exact hgone.round.once_between hnodup hij hi hj hnone hq hqp

/-- Without an error handler, and with no process but those of `robin`, there is no rival. -/
theorem NoRival.of_alone (hhandler : s.errorHandlerProcess = none)
    (halone : ∀ n ∈ s.processes, n.data ∈ robin) : NoRival robin priority s := by
  intro p hp hactive
  rw [hhandler]
  refine ⟨fun h => (nomatch h), ?_⟩
  rintro ⟨n, hn, rfl⟩
  exact absurd (halone n hn) hp

/-- The partition OS takes a turn or a process waits, and no process is linked but those of `robin`. -/
def stepsAlone (robin : List Nat) (s : Pcb) (e : Action) : Bool :=
  (match e with
    | .loop => true
    | .call (.timedWait delayTime) => decide (delayTime = 0)
    | _ => false)
  && (s.step e).all fun s' =>
    s'.errorHandlerProcess.isNone && s'.processes.all fun n => decide (n.data ∈ robin)

theorem roundRobinStep_of_alone {e : Action} (h : stepsAlone robin s e = true) :
    RoundRobinStep robin priority s e := by
  unfold stepsAlone at h
  rw [Bool.and_eq_true] at h
  obtain ⟨haction, halone⟩ := h
  refine ⟨?_, ?_, fun s' hs' => ?_⟩
  · rintro service rfl
    cases service
    case timedWait delayTime =>
      rw [of_decide_eq_true haction]
    all_goals cases haction
  · rintro errorCode messageAddr length rfl
    cases haction
  · rw [hs', Option.all_some, Bool.and_eq_true] at halone
    exact .of_alone (Option.isNone_iff_eq_none.mp halone.1) (by simpa using halone.2)

/-- Two processes of the same priority are started, and the partition goes to `NORMAL`. -/
def equalProcesses : List Action :=
  [.loop, .call (.createProcess (aperiodicProcess "A".toList 50)),
    .call (.createProcess (aperiodicProcess "B".toList 50)), .call (.start 1), .call (.start 2),
    .call (.setPartitionMode 3)]

/-- Each of them has a turn, and then the first one again. -/
def threeTurns : List Action :=
  [.loop, .call (.timedWait 0), .loop, .call (.timedWait 0), .loop]

theorem timedWait_round_robin_two : ∃ s s',
    Transition.run step (defaultPartition 1) equalProcesses = some s
      ∧ Robin.Waits s [0, 1] [0, 1] 50
      ∧ Transition.GuardedRun step (RoundRobinStep [0, 1] 50) s threeTurns s'
      ∧ RoundRobin.GoesRound [0, 1]
        (Transition.record step addTurn [] s threeTurns).reduceOption := by
  have hstates : (Transition.run step (defaultPartition 1) equalProcesses).map (fun s =>
      (s.processes, s.errorHandlerProcess, s.status.operatingMode, s.ctl)) =
      some ([⟨0, 0⟩, ⟨1, 1⟩], none, .normal, .partitionOs) := by decide
  have hrecords : (Transition.run step (defaultPartition 1) equalProcesses).map (fun s =>
      [0, 1].map fun p => ((s.proc p).processState, (s.proc p).currentPriority, (s.proc p).rtPrio,
        (s.proc p).ownedMutexId)) =
      some [(.ready, 50, 0, noMutexOwned), (.ready, 50, 0, noMutexOwned)] := by decide
  obtain ⟨s, hs, hfields⟩ := Option.map_eq_some_iff.mp hstates
  rw [hs, Option.map_some] at hrecords
  simp only [Prod.mk.injEq] at hfields
  obtain ⟨hprocesses, hhandler, hmode, hctl⟩ := hfields
  simp only [List.map_cons, List.map_nil, Option.some.injEq, List.cons.injEq, Prod.mk.injEq] at hrecords
  obtain ⟨⟨hready, hprio, hrt, hfree⟩, ⟨hready', hprio', hrt', hfree'⟩, -⟩ := hrecords
  have hwaits : Robin.Waits s [0, 1] [0, 1] 50 := by
    refine ⟨⟨?_, ?_, ?_, ?_, ?_, hmode⟩, hctl, ?_⟩
    · rw [hprocesses]
      decide
    · simp [hprio, hprio']
    · simp [hrt, hrt']
    · simp [hfree, hfree']
    · simp [hhandler]
    · simp [hready, hready']
  have hchecked : ((Transition.run step (defaultPartition 1) equalProcesses).bind fun s =>
      Transition.checkedRun step (fun s e => stepsAlone [0, 1] s e = true) s threeTurns).isSome = true := by
    decide
  rw [hs, Option.bind_some] at hchecked
  obtain ⟨s', hs'⟩ := Option.isSome_iff_exists.mp hchecked
  have hrun : Transition.GuardedRun step (RoundRobinStep [0, 1] 50) s threeTurns s' :=
    (Transition.guardedRun_of_checked hs').mono fun _ _ => roundRobinStep_of_alone
  exact ⟨s, s', hs, hwaits, hrun, (timedWait_round_robin (by decide) (by decide) hwaits hrun).1⟩

end Pcb

end UcxArinc
