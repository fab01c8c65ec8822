import UcxArinc.Proofs.ServiceMoves

set_option autoImplicit false

/-! # Process services, mutexes and the partition OS as moves

The services that start, stop, suspend and lock, the health monitor, the loop of `partition_OS` and
the mode changes; with the communication services they make `step_moves`. -/

namespace UcxArinc

namespace Pcb

variable {A : Permit} {s s' : Pcb}

/-! ## Time -/

/-- A service that puts its caller to sleep in no list. -/
theorem sleep_moves {node : Node} {f : Process → Process} {k : Context} {timer : Option Int}
    (hrun : Running s) (hnode : s.processCurrent = some node)
    (hf : ∀ x, SleepsAs k timer x { f x with context := k }) (hA : A.sleep s node.data k timer)
    (hk : portOf k = none) (hsleeps : k = .suspendSelf ∨ k = .timedWait ∨ k = .periodicWait) :
    Moves A s ((s.modProc node.data f).yieldToPartition node.data k).1 := by
  rw [yieldToPartition, modProc_modProc]
  exact .single (.sleep s node.data _ k timer ⟨hrun, node, hnode, rfl⟩ hk hf hA hsleeps)

/-- The node of the caller moves, and the caller follows it. -/
theorem moveCaller_moves {node : Node} {front : Bool} (hnode : s.processCurrent = some node)
    (hA : A.requeue node.data) : Moves A s (s.moveNode node node.data front true) :=
  .single (.moveNode s node node.data front true
    ⟨rfl, Or.inr hnode, fun _ => rfl, fun _ => Or.inr hnode⟩ hA)

theorem timedWait_moves (hrun : Running s) {delayTime : Int}
    (hA : PermitsCall A s (.timedWait delayTime)) : Moves A s (s.timedWait delayTime).1 := by
  unfold timedWait
  refine withCurrent_moves fun node hnode => ?_
  dsimp only
  split_ifs with hcannot hinvalid hinf hzero
  iterate 3 exact .refl
  · refine .head (.selfReady s node.data ⟨hrun, node, hnode, rfl⟩ (by simpa using hcannot)) ?_
    refine .trans (@moveCaller_moves _ _ _ false hnode (hA.2 node hnode (by simpa using hcannot))) ?_
    exact .single (.yield _ node.data _ ⟨hrun, ⟨_, node.data⟩, rfl, rfl⟩ rfl)
  · refine sleep_moves hrun hnode
      (fun x => ⟨rfl, rfl, rfl, rfl, rfl, rfl, rfl, rfl, fun _ => rfl, fun h => (nomatch h), rfl, rfl, rfl, rfl,
        fun _ => rfl⟩)
      (hA.1 ?_ node hnode (by simpa using hcannot) fun h => (nomatch h)) rfl (Or.inr (Or.inl rfl))
    unfold timeOutInvalid at hinvalid
    rw [Bool.or_eq_true, not_or, decide_eq_true_eq] at hinvalid
    unfold infiniteTimeValue at *
    omega

theorem periodicWait_moves (hrun : Running s) (hA : PermitsCall A s .periodicWait) :
    Moves A s s.periodicWait.1 := by
  unfold periodicWait
  refine withCurrent_moves fun node hnode => ?_
  dsimp only
  refine refused_moves fun hcannot => ?_
  refine refused_moves fun hperiod => ?_
  -- whatever the capacity, the sum overflows or the caller sleeps
  split_ifs
  all_goals first
    | exact .refl
    | exact sleep_moves hrun hnode
        (fun x => ⟨rfl, rfl, rfl, rfl, rfl, rfl, rfl, rfl, fun _ => rfl, fun h => (nomatch h), rfl, rfl, rfl, rfl,
          fun h => absurd rfl h⟩)
        (hA node hnode (by simpa using hcannot) fun h => (nomatch h)) rfl (Or.inr (Or.inr rfl))

theorem replenish_moves (hrun : Running s) (budgetTime : Int) : Moves A s (s.replenish budgetTime).1 := by
  unfold replenish
  refine withCurrent_moves fun node hnode => ?_
  dsimp only
  split_ifs
  iterate 3 exact .refl
  all_goals
    dsimp only [ret]
    exact .single (touch_deadline ⟨hrun, node, hnode, rfl⟩ _)

/-! ## Creation -/

theorem createProcess_moves (hrun : Running s) {attributes : ProcessAttribute}
    (hA : PermitsCall A s (.createProcess attributes)) :
    Moves A s (s.createProcess attributes).1 := by
  unfold createProcess
  iterate 4 refine refused_moves fun _ => ?_
  refine refused_moves fun hpriority => refused_moves fun hperiod => refused_moves fun _ => ?_
  refine refused_moves fun hcapacity => refused_moves fun _ => refused_moves fun hmode => ?_
  dsimp only [ucxProcessSpawn, listPushback, modProc]
  rw [Function.update_self, Function.update_idem]
  refine .tail (.single (.spawn s _ ⟨s.nextNode, s.nextProc⟩ false hrun hmode rfl
      (fun h => nomatch h) ?_ ?_ fun h => nomatch h))
    (.frame (frame_counters _ s.status.lockLevel s.errorListCb s.lastTick _ _ _ _))
  · refine ⟨rfl, rfl, rfl, rfl, rfl, rfl, rfl, rfl, rfl, ?_, not_lt.mp hperiod, fun _ => not_lt.mp hcapacity⟩
    exact not_lt.mp fun h => hpriority (Or.inr h)
  · exact hA

theorem createErrorHandler_moves (hrun : Running s) {stackSize : Nat}
    (hA : PermitsCall A s (.createErrorHandler stackSize)) :
    Moves A s (s.createErrorHandler stackSize).1 := by
  unfold createErrorHandler
  refine refused_moves fun hfirst => ?_
  iterate 2 refine refused_moves fun _ => ?_
  refine refused_moves fun hmode => ?_
  dsimp only [listPushback]
  refine .tail (.single (.spawn s _ ⟨s.nextNode, s.nextProc⟩ true hrun hmode rfl
      (fun _ => by simpa using hfirst) ?_ ?_ fun _ => rfl))
    (.frame (frame_counters _ s.status.lockLevel _ s.lastTick _ _ _ _))
  · exact ⟨rfl, rfl, rfl, rfl, rfl, rfl, rfl, rfl, rfl, le_rfl, le_rfl, fun h => absurd rfl h⟩
  · exact hA

theorem initializeProcessCoreAffinity_moves (processId processorCoreId : Int) :
    Moves A s (s.initializeProcessCoreAffinity processId processorCoreId).1 := by
  unfold initializeProcessCoreAffinity
  refine withProcess_moves fun node hnode => ?_
  iterate 2 refine refused_moves fun _ => ?_
  dsimp only [ret]
  exact .single (.touch s node.data _
    (fun _ => ⟨rfl, rfl, rfl, rfl, rfl, rfl, rfl, rfl, rfl, rfl, rfl, rfl, rfl, rfl⟩)
    (Or.inr fun _ => rfl))

/-! ## Priorities, suspension -/

/-- `SET_PRIORITY` once the priority is written: the process moves behind its equals. -/
def requeued (s : Pcb) (node : Node) : Outcome :=
  if (s.proc node.data).processState = .ready ∨ (s.proc node.data).processState = .running then
    let (t, newNode) := (s.listRemove node).listPushback node.data
    let t := if (t.proc node.data).processState = .running then t.setCurrent (some newNode) else t
    t.withCurrent fun current => t.yieldToPartition current.data .setPriority
  else s.ret .noError

theorem requeued_moves (hrun : Running s) {node : Node} (hnode : node ∈ s.processes)
    (hA : A.requeue node.data) : Moves A s (s.requeued node).1 := by
  unfold requeued
  by_cases hstate : (s.proc node.data).processState = .ready
      ∨ (s.proc node.data).processState = .running
  · rw [if_pos hstate]
    by_cases hself : (s.proc node.data).processState = .running
    · refine .head (.moveNode s node node.data false true
        ⟨rfl, Or.inl hnode, fun _ => rfl, fun _ => Or.inl hself⟩ hA) ?_
      dsimp only [listPushback, listRemove]
      rw [if_pos hself]
      refine withCurrent_yield_moves ?_ _ rfl
      exact hrun
    · refine .head (.moveNode s node node.data false false
        ⟨rfl, Or.inl hnode, fun h => absurd h hself, fun h => absurd h Bool.false_ne_true⟩ hA) ?_
      dsimp only [listPushback, listRemove]
      rw [if_neg hself]
      refine withCurrent_yield_moves ?_ _ rfl
      exact hrun
  · rw [if_neg hstate]
    exact .refl

theorem setPriority_moves (hrun : Running s) {processId priority : Int}
    (hA : PermitsCall A s (.setPriority processId priority)) :
    Moves A s (s.setPriority processId priority).1 := by
  unfold setPriority
  refine withProcess_moves fun node hnode => ?_
  have hmem := (isProcessIdExisted_eq_some hnode).1
  dsimp only
  refine refused_moves fun hrange => ?_
  refine refused_moves fun hdormant => ?_
  obtain ⟨hprioritize, hrequeue⟩ := hA node hnode hdormant
  by_cases howns : (s.proc node.data).ownedMutexId ≠ noMutexOwned
  · -- the priority waits in the mutex
    rw [if_pos howns]
    cases hindex : s.findMutexById (s.proc node.data).ownedMutexId with
    | none => exact .single (.crash s)
    | some index =>
        refine .head (.savePriority s index node.data priority (isMutex_of_find hindex) hprioritize
          ⟨node, hmem, rfl⟩) ?_
        exact requeued_moves (s := s.setMutex index _) hrun hmem hrequeue
  · rw [if_neg howns]
    refine .head (.setPriority s node.data priority (not_not.mp howns)
      (not_lt.mp fun h => hrange (Or.inr h)) hprioritize) ?_
    exact requeued_moves (s := s.modProc node.data _) hrun hmem hrequeue

theorem suspendSelf_moves (hrun : Running s) {timeOut : Int}
    (hA : PermitsCall A s (.suspendSelf timeOut)) : Moves A s (s.suspendSelf timeOut).1 := by
  unfold suspendSelf
  refine withCurrent_moves fun node hnode => ?_
  dsimp only
  refine refused_moves fun hcannot => refused_moves fun hinvalid => ?_
  refine refused_moves fun hperiod => refused_moves fun hzero => ?_
  have hmay := hA hzero (by simpa using hinvalid) node hnode (by simpa using hcannot)
    fun _ => not_not.mp hperiod
  refine sleep_moves hrun hnode
    (fun x => ⟨rfl, rfl, rfl, rfl, rfl, rfl, rfl, ?_, fun h => absurd rfl h, fun _ => rfl, rfl, rfl,
      rfl, rfl, fun _ => rfl⟩) hmay rfl (Or.inl rfl)
  by_cases hinf : timeOut = infiniteTimeValue
  · rw [if_pos hinf, if_neg (not_not.mpr hinf)]
    rfl
  · rw [if_neg hinf, if_pos hinf]
    rfl

theorem suspend_moves {processId : Int} (hA : PermitsCall A s (.suspend processId)) :
    Moves A s (s.suspend processId).1 := by
  unfold suspend
  refine withCurrent_moves fun current hcurrent => withProcess_moves fun node hnode => ?_
  dsimp only
  split_ifs with hself hmutex hstate hperiod hsuspended
  iterate 5 exact .refl
  rw [not_or, Option.not_isSome_iff_eq_none] at hmutex
  rw [not_or] at hstate
  refine .single (.suspend s node (isProcessIdExisted_eq_some hnode).1 ?_ hmutex.2 (not_not.mp hmutex.1) hstate.1
    (hA node hnode (not_not.mp hperiod) (by simpa using hsuspended) hstate.1))
  intro c hc
  rw [hcurrent] at hc
  cases hc
  exact hself

theorem resume_moves (hrun : Running s) {processId : Int} (hA : PermitsCall A s (.resume processId)) :
    Moves A s (s.resume processId).1 := by
  unfold resume
  refine withCurrent_moves fun current hcurrent => withProcess_moves fun node hnode => ?_
  have hmem := (isProcessIdExisted_eq_some hnode).1
  dsimp only
  refine refused_moves fun hself => refused_moves fun hdormant => refused_moves fun hperiod => ?_
  refine refused_moves fun hfaulted => ?_
  cases hsuspended : (s.proc node.data).isSuspended with
  | true =>
      rw [if_pos rfl, if_pos (Or.inl (by rw [modProc_proc_self])), modProc_modProc,
        modProc_congr (g := resumed) (by simp [resumed, hsuspended])]
      refine .head (.resume s node hmem hdormant (Or.inl hsuspended) (hA node hnode))
        (yield_moves ?_ ?_ _ rfl)
      · exact hrun
      · exact hcurrent
  | false =>
      rw [if_neg Bool.false_ne_true]
      have hstate : (s.proc node.data).processState = .faulted := by
        by_contra hne
        exact hfaulted ⟨hsuspended, hne⟩
      split
      · rw [modProc_congr (g := resumed) (by simp [resumed, hsuspended])]
        refine .head (.resume s node hmem hdormant (Or.inr hstate) (hA node hnode))
          (yield_moves ?_ ?_ _ rfl)
        · exact hrun
        · exact hcurrent
      · exact .refl

/-! ## Stopping and starting -/

/-- `STOP` changes the record of the process stopped, the waiting lists and their counters. -/
theorem stopped_eq (s : Pcb) (p : Nat) : ∃ waiting lists counts, s.stopped p = { s with
    proc := Function.update s.proc p { makeDormant (s.proc p) with
      waiting := waiting
      deadlineTime := infiniteTimeValue }
    waitingProcesses := lists
    waitingCount := counts } := by
  have hsame : SameButQueues p s (if isProcessWaitingInWaitingQueue (s.proc p) then
      s.removeProcessFromWaitingQueue p else s) := by
    split
    · exact removeProcessFromWaitingQueue_same s p
    · exact .refl p s
  obtain ⟨w, l, c, heq⟩ := hsame
  refine ⟨w, l, c, ?_⟩
  unfold stopped
  rw [heq]
  unfold modProc
  dsimp only
  rw [Function.update_self, Function.update_idem]
  rfl

theorem stopped_caller (s : Pcb) (p : Nat) :
    (s.stopped p).processCurrent = s.processCurrent ∧ (s.stopped p).ctl = s.ctl := by
  obtain ⟨w, l, c, heq⟩ := stopped_eq s p
  rw [heq]
  exact ⟨rfl, rfl⟩

theorem stop_moves (hrun : Running s) {processId : Int} (hA : PermitsCall A s (.stop processId)) :
    Moves A s (s.stop processId).1 := by
  unfold stop
  refine withCurrent_moves fun current hcurrent => withProcess_moves fun node hnode => ?_
  dsimp only
  refine refused_moves fun hself => refused_moves fun hdormant => ?_
  refine .head (.stop s node (isProcessIdExisted_eq_some hnode).1 ?_ (hA node hnode hdormant))
    (yield_moves ?_ ?_ _ rfl)
  · intro c hc
    rw [hcurrent] at hc
    cases hc
    exact hself
  · exact hrun.congr (stopped_caller s node.data).2
  · exact (stopped_caller s node.data).1.trans hcurrent

/-- The process is started and the service returns. -/
theorem started_moves {node : Node} {delayed : Bool} {f : Process → Process}
    (hmem : node ∈ s.processes) (hdormant : ¬ (s.proc node.data).processState ≠ .dormant)
    (hA : A.start node.data delayed)
    (hf : StartedAs delayed (s.proc node.data) (f (s.proc node.data))) :
    Moves A s ((s.modProc node.data f).ret .noError).1 :=
  .single (.start s node delayed f hmem (not_not.mp hdormant) hf hA)

/-- The process is started, and the caller yields. -/
theorem started_yield_moves {node : Node} {delayed : Bool} {f : Process → Process} {k : Context}
    (hrun : Running s) (hmem : node ∈ s.processes)
    (hdormant : ¬ (s.proc node.data).processState ≠ .dormant) (hA : A.start node.data delayed)
    (hf : StartedAs delayed (s.proc node.data) (f (s.proc node.data)))
    (hk : resumesPlainly k = true) :
    Moves A s ((s.modProc node.data f).withCurrent fun current =>
      (s.modProc node.data f).yieldToPartition current.data k).1 := by
  refine .head (.start s node delayed f hmem (not_not.mp hdormant) hf hA) ?_
  refine withCurrent_yield_moves ?_ _ hk
  exact hrun

theorem start_moves (hrun : Running s) {processId : Int} (hA : PermitsCall A s (.start processId)) :
    Moves A s (s.start processId).1 := by
  unfold start
  refine withProcess_moves fun node hnode => ?_
  dsimp only
  refine refused_moves fun hdormant => refused_moves fun hinvalid => ?_
  have hmem := (isProcessIdExisted_eq_some hnode).1
  have hstart := hA node hnode (not_not.mp hdormant)
  simp only [modProc_modProc]
  split
  · refine started_moves hmem hdormant hstart ?_
    exact ⟨rfl, Or.inr rfl, rfl, rfl, rfl, rfl, rfl, rfl, rfl, rfl, rfl, fun _ => ⟨rfl, rfl⟩, fun _ => rfl⟩
  · split
    · refine started_yield_moves hrun hmem hdormant hstart ?_ rfl
      exact ⟨rfl, Or.inl rfl, rfl, rfl, rfl, rfl, rfl, rfl, rfl, rfl, rfl, fun _ => ⟨rfl, rfl⟩, fun _ => rfl⟩
    · refine started_moves hmem hdormant hstart ?_
      exact ⟨rfl, Or.inr rfl, rfl, rfl, rfl, rfl, rfl, rfl, rfl, rfl, rfl, fun _ => ⟨rfl, rfl⟩, fun _ => rfl⟩

theorem delayedStart_moves (hrun : Running s) {processId delayTime : Int}
    (hA : PermitsCall A s (.delayedStart processId delayTime)) :
    Moves A s (s.delayedStart processId delayTime).1 := by
  unfold delayedStart
  refine withProcess_moves fun node hnode => ?_
  dsimp only
  refine refused_moves fun hdormant => refused_moves fun _ => refused_moves fun _ => ?_
  refine refused_moves fun _ => refused_moves fun _ => ?_
  have hmem := (isProcessIdExisted_eq_some hnode).1
  have hstart := hA node hnode (not_not.mp hdormant)
  simp only [modProc_modProc]
  have htimes {x y : Process} : true = false →
      y.timeCounter = x.timeCounter ∧ y.savedInitDelay = x.savedInitDelay :=
    fun h => Bool.noConfusion h
  split
  · refine started_moves hmem hdormant hstart ?_
    exact ⟨rfl, Or.inr rfl, rfl, rfl, rfl, rfl, rfl, rfl, rfl, rfl, rfl, htimes, fun _ => rfl⟩
  · split
    · next hperiod =>
        rw [modProc_proc_self] at hperiod
        by_cases hzero : delayTime = 0
        · simp only [if_pos hzero]
          refine started_yield_moves hrun hmem hdormant hstart ?_ rfl
          exact ⟨rfl, Or.inl rfl, rfl, rfl, rfl, rfl, rfl, rfl, rfl, rfl, rfl, htimes, fun _ => rfl⟩
        · simp only [if_neg hzero]
          refine started_yield_moves hrun hmem hdormant hstart ?_ rfl
          exact ⟨rfl, Or.inr rfl, rfl, rfl, rfl, rfl, rfl, rfl, rfl, rfl, rfl, htimes,
            fun h => absurd hperiod h⟩
    · refine started_moves hmem hdormant hstart ?_
      exact ⟨rfl, Or.inr rfl, rfl, rfl, rfl, rfl, rfl, rfl, rfl, rfl, rfl, htimes, fun _ => rfl⟩

/-! ## Mutexes -/

theorem createMutex_moves (name : Name) (mutexPriority discipline : Int) :
    Moves A s (s.createMutex name mutexPriority discipline).1 := by
  unfold createMutex
  refine refused_moves fun _ => refused_moves fun _ => refused_moves fun _ => ?_
  split
  · exact .refl
  · refine refused_moves fun hmode => ?_
    exact .tail (.single (.newMutex s _ hmode rfl rfl rfl)) (.freshLists _ .mutex s.res.mutexCount hmode)

theorem krnlAcquireMutex_moves (hrun : Running s) {mutexId timeOut : Int} {k : Bool → Context}
    (hA : MayWaitForMutex A s mutexId timeOut) (hacquire : MayAcquire A s)
    (hport : ∀ b, portOf (k b) = none) (hfrom : ∀ b i, ResumesFrom (.mutex i) (k b)) :
    Moves A s (s.krnlAcquireMutex mutexId timeOut k).1 := by
  unfold krnlAcquireMutex
  split
  · exact .refl
  · next index hindex =>
      have hidx := isMutex_of_find hindex
      refine refused_moves fun hinvalid => withCurrent_moves fun node hnode => ?_
      have hcalls : Calls s node.data := ⟨hrun, node, hnode, rfl⟩
      dsimp only
      refine refused_moves fun hfree => refused_moves fun hhandler => refused_moves fun hprio => ?_
      have hfree' : (s.proc node.data).ownedMutexId = noMutexOwned
          ∨ (s.proc node.data).ownedMutexId = mutexId := by
        rw [not_and_or, not_not, not_not] at hfree
        exact hfree
      by_cases hstate : (s.res.mutexes index).mutexState = .available
      · rw [if_pos hstate]
        exact .single (.acquire s index node.data node mutexId hcalls hidx hnode rfl hstate hfree'
          (hacquire node hnode hhandler) hhandler)
      rw [if_neg hstate]
      by_cases howner : (s.res.mutexes index).mutexOwner = (s.proc node.data).processId
      · rw [if_pos howner]
        exact refused_moves fun hmax =>
          .single (.relock s index node.data mutexId hcalls hidx hstate hmax)
      rw [if_neg howner]
      refine refused_moves fun hzero => ?_
      have hwait : MustWaitForMutex s node.data index :=
        ⟨hidx.index_lt, hstate, howner, by rw [hidx.mutexId_eq]; exact hfree', hhandler⟩
      have hmay := hA hzero node index hnode hindex hwait
      by_cases hinf : timeOut = infiniteTimeValue
      · rw [if_pos hinf] at hmay ⊢
        exact .single (.block s _ _ _ _ _ _ hcalls rfl
          (fun i hi => by cases hi; exact ⟨hwait, rfl⟩)
          (fun i hi => by rw [hport] at hi; cases hi) (hfrom _ index).ne_suspendSelf hmay (hfrom _ index))
      · rw [if_neg hinf] at hmay ⊢
        exact .single (.block s _ _ _ _ _ _ hcalls rfl
          (fun i hi => by cases hi; exact ⟨hwait, rfl⟩)
          (fun i hi => by rw [hport] at hi; cases hi) (hfrom _ index).ne_suspendSelf hmay (hfrom _ index))

theorem handMutexOver_caller {index : Nat} {mutexId : Int}
    (h : s.handMutexOver index mutexId = some s') :
    s'.processCurrent = s.processCurrent ∧ s'.ctl = s.ctl := by
  rcases handMutexOver_eq_some h with ⟨-, rfl⟩ | ⟨woken, t, node, hwake, -, rfl⟩
  · exact ⟨rfl, rfl⟩
  · obtain ⟨hcur, hctl⟩ := wakeFirst_caller hwake
    exact ⟨hcur, hctl⟩

/-- A mutex given back is free. -/
theorem takenBack_available (s : Pcb) (index p : Nat) (node : Node) (follow : Bool) :
    ((s.takenBack index p node follow).res.mutexes index).mutexState = .available := by
  cases follow
  all_goals
    show (Function.update s.res.mutexes index _ index).mutexState = .available
    rw [Function.update_self]

theorem IsMutex.takenBack {index : Nat} {mutexId : Int} (h : IsMutex s index mutexId) (p : Nat)
    (node : Node) (follow : Bool) : IsMutex (s.takenBack index p node follow) index mutexId := by
  refine ⟨?_, ?_⟩
  · cases follow
    all_goals exact h.index_lt
  · cases follow
    all_goals
      show (Function.update s.res.mutexes index _ index).mutexId = mutexId
      rw [Function.update_self]
      exact h.mutexId_eq

/-- The lists stay. -/
theorem firstIn_takenBack (s : Pcb) (index p : Nat) (node : Node) (follow : Bool) {q : WaitList}
    {p' : Nat} : (s.takenBack index p node follow).FirstIn q p' ↔ s.FirstIn q p' := by
  cases follow <;> rfl

theorem krnlReleaseMutex_moves (hrun : Running s) {mutexId : Int} {k : Context}
    (hgive : ∀ p i, i < s.res.mutexCount →
      (s.proc p).ownedMutexId = (s.res.mutexes i).mutexId → A.giveBack p)
    (hgrant : ∀ p, s.ReleasesTo mutexId p → A.grant p) (hk : resumesPlainly k = true) :
    Moves A s (s.krnlReleaseMutex mutexId k).1 := by
  unfold krnlReleaseMutex
  split
  · exact .refl
  · next index hindex =>
      have hidx := isMutex_of_find hindex
      refine withCurrent_moves fun node hnode => ?_
      dsimp only
      refine refused_moves fun hown => ?_
      have hcalls : Calls s node.data := ⟨hrun, node, hnode, rfl⟩
      have hown' := not_not.mp hown
      by_cases hlast : (s.res.mutexes index).lockCount - 1 = 0
      · rw [if_pos hlast]
        refine .head (.takeBack s index node.data node true mutexId hrun hidx hown'
          ⟨rfl, Or.inr hnode, fun _ => rfl, fun _ => Or.inr hnode⟩
          (hgive _ _ hidx.index_lt (hown'.trans hidx.mutexId_eq.symm))) ?_
        split
        · exact .single (.crash _)
        · next t hhand =>
            obtain ⟨hcur, hctl⟩ := handMutexOver_caller hhand
            refine .head (.handOver index mutexId hhand (hidx.takenBack node.data node true)
              (takenBack_available s index node.data node true) fun p hp => ?_) ?_
            · exact hgrant p ⟨node, index, hnode, hown', hindex, hlast,
                (firstIn_takenBack s index node.data node true).mp hp⟩
            refine .single (.yield t node.data k ⟨hrun.congr hctl, _, hcur, rfl⟩ hk)
      · rw [if_neg hlast]
        exact .single (.unlock s index node.data mutexId hcalls hidx hown' hlast)

theorem resetLockLevel_frame (s : Pcb) (index : Nat) : Frame s (s.resetLockLevel index) := by
  unfold resetLockLevel
  split
  · exact frame_counters s 0 s.errorListCb s.lastTick _ _ _ _
  · exact .refl s

/-- The calling process is still the current one, perhaps on a new node. -/
def StillCurrent (s s' : Pcb) : Prop :=
  s'.ctl = s.ctl ∧ ∀ c, s.processCurrent = some c →
    ∃ c', s'.processCurrent = some c' ∧ c'.data = c.data

/-- The block of `RESET_MUTEX` and `STOP_SELF` that gives a mutex back and hands it over. The node is
    linked or the caller's own; if it runs, it is the caller's. -/
theorem resetOwnedMutex_moves {index p : Nat} {node : Node} (hrun : Running s)
    (hidx : index < s.res.mutexCount)
    (hown : (s.proc p).ownedMutexId = (s.res.mutexes index).mutexId) (hdata : node.data = p)
    (hlinked : node ∈ s.processes ∨ s.processCurrent = some node)
    (hcur : (s.proc p).processState = .running → ∀ c, s.processCurrent = some c → c.data = p)
    (hA : A.giveBack p) (hgrant : ∀ p', s.FirstIn (.mutex index) p' → A.grant p')
    (h : s.resetOwnedMutex index p node = some s') : Moves A s s' ∧ StillCurrent s s'
      ∧ ((s'.proc p).ownedMutexId = noMutexOwned ∨ s.FirstIn (.mutex index) p) := by
  unfold resetOwnedMutex at h
  have hframe := resetLockLevel_frame s index
  have hres : (s.resetLockLevel index).res = s.res := by
    unfold resetLockLevel
    split <;> rfl
  generalize s.resetLockLevel index = t at h hframe hres
  have hmutex : IsMutex t index (s.res.mutexes index).mutexId :=
    ⟨by rw [hframe.mutexCount]; exact hidx, by rw [hres]⟩
  have hstate : (t.takeMutexBack index p node).1.proc p = { t.proc p with
      ownedMutexId := noMutexOwned
      currentPriority := (t.res.mutexes index).savedOwnerPriority } :=
    Function.update_self _ _ _
  have hmove : ∀ follow, Movable t node p follow →
      Moves A s (t.takenBack index p node follow) := fun follow hmovable =>
    .head (.frame hframe) (.single (.takeBack t index p node follow _ (hrun.congr hframe.ctl) hmutex
      (by rw [hframe.proc]; exact hown) hmovable hA))
  have hfirst : ∀ follow p', (t.takenBack index p node follow).FirstIn (.mutex index) p' → A.grant p' := by
    intro follow p' hp'
    rw [firstIn_takenBack, FirstIn, hframe.waitingProcesses] at hp'
    exact hgrant p' hp'
  -- the process owns nothing then, unless it was itself the first waiter
  have howns : ∀ follow, (t.takenBack index p node follow).handMutexOver index (s.res.mutexes index).mutexId
      = some s' → (s'.proc p).ownedMutexId = noMutexOwned ∨ s.FirstIn (.mutex index) p := by
    intro follow hhand
    have hgiven : ((t.takenBack index p node follow).proc p).ownedMutexId = noMutexOwned := by
      cases follow
      all_goals
        show (Function.update t.proc p _ p).ownedMutexId = noMutexOwned
        rw [Function.update_self]
    rcases handMutexOver_proc hhand with hproc | ⟨woken, rest, hlist, -, hproc⟩
    · rw [hproc]
      exact Or.inl hgiven
    · by_cases hp : p = woken
      · refine Or.inr ⟨rest, ?_⟩
        have hfirst := (firstIn_takenBack t index p node follow).mp ⟨rest, hlist⟩
        obtain ⟨rest', hrest⟩ := hfirst
        rw [hframe.waitingProcesses] at hrest
        rw [hp]
        have hsame : rest' = rest := by
          have hlists : (t.takenBack index p node follow).waitingProcesses = t.waitingProcesses := by
            cases follow <;> rfl
          rw [hlists, hframe.waitingProcesses, hrest] at hlist
          exact (List.cons.inj hlist).2
        rw [hrest, hsame]
      · rw [hproc, if_neg hp]
        exact Or.inl hgiven
  dsimp only at h
  have hlinked' : node ∈ t.processes ∨ t.processCurrent = some node := by
    rw [hframe.processes, hframe.processCurrent]
    exact hlinked
  by_cases hself : (t.proc p).processState = .running
  · -- the process runs: the current process is now its new node
    rw [hstate, if_pos hself] at h
    obtain ⟨hcur', hctl'⟩ := handMutexOver_caller h
    refine ⟨.tail (hmove true ⟨hdata, hlinked', fun _ => rfl, fun _ => Or.inl hself⟩)
      (.handOver index _ h (hmutex.takenBack p node true) (takenBack_available t index p node true)
        (hfirst true)),
      ⟨hctl'.trans hframe.ctl, fun c hc => ?_⟩, howns true h⟩
    rw [hframe.proc] at hself
    exact ⟨_, hcur', (hcur hself c hc).symm⟩
  · rw [hstate, if_neg hself] at h
    obtain ⟨hcur', hctl'⟩ := handMutexOver_caller h
    refine ⟨.tail (hmove false ⟨hdata, hlinked', fun hr => absurd hr hself,
        fun hf => Bool.noConfusion hf⟩)
      (.handOver index _ h (hmutex.takenBack p node false)
        (takenBack_available t index p node false) (hfirst false)),
      ⟨hctl'.trans hframe.ctl, fun c hc => ?_⟩, howns false h⟩
    exact ⟨c, hcur'.trans (hframe.processCurrent.trans hc), rfl⟩

/-- No linked process but the current one runs. -/
def OneRunning (s : Pcb) : Prop :=
  ∀ node ∈ s.processes, (s.proc node.data).processState = .running →
    ∃ c, s.processCurrent = some c ∧ c.data = node.data

theorem resetMutex_moves (hrun : Running s) (hone : s.status.operatingMode = .normal → OneRunning s)
    {mutexId processId : Int}
    (hgive : ∀ p i, i < s.res.mutexCount →
      (s.proc p).ownedMutexId = (s.res.mutexes i).mutexId → A.giveBack p)
    (hgrant : ∀ p, Wakes s (.resetMutex mutexId processId) p → A.grant p) :
    Moves A s (s.resetMutex mutexId processId).1 := by
  unfold resetMutex
  refine withCurrent_moves fun current hcurrent => ?_
  dsimp only
  refine refused_moves fun hmode => ?_
  split
  · exact .refl
  · next index hindex =>
      have hidx := isMutex_of_find hindex
      refine refused_moves fun _ => ?_
      split
      · exact .refl
      · next node hnode =>
          have hmem := (isProcessIdExisted_eq_some hnode).1
          refine refused_moves fun hown => refused_moves fun _ => ?_
          have hown' : (s.proc node.data).ownedMutexId = (s.res.mutexes index).mutexId :=
            (not_not.mp hown).trans hidx.mutexId_eq.symm
          split
          · exact .single (.crash s)
          · next t ht =>
              obtain ⟨hmoves, ⟨hctl, hcaller⟩, -⟩ := resetOwnedMutex_moves (A := A) hrun hidx.index_lt
                hown' rfl (Or.inl hmem) (fun hself c hc => by
                  obtain ⟨c', hc', hdata⟩ := hone (not_not.mp hmode) node hmem hself
                  rw [hc] at hc'
                  cases hc'
                  exact hdata) (hgive _ _ hidx.index_lt hown') (fun p' hp' =>
                    hgrant p' ⟨node, index, hnode, not_not.mp hown, hindex, hp'⟩) ht
              obtain ⟨c', hc', hdata⟩ := hcaller current hcurrent
              rw [← hdata]
              exact .trans hmoves (yield_moves (hrun.congr hctl) hc' _ rfl)

theorem stopSelf_moves (hrun : Running s)
    (hgive : ∀ p i, i < s.res.mutexCount →
      (s.proc p).ownedMutexId = (s.res.mutexes i).mutexId → A.giveBack p)
    (hgrant : ∀ p, Wakes s .stopSelf p → A.grant p) (hquit : PermitsCall A s .stopSelf) :
    Moves A s s.stopSelf.1 := by
  unfold stopSelf
  refine withCurrent_moves fun node hnode => ?_
  have hdeadline := touch_deadline (A := A) ⟨hrun, node, hnode, rfl⟩ fun _ => infiniteTimeValue
  dsimp only
  generalize ht : (s.modProc node.data fun x => { x with deadlineTime := infiniteTimeValue }) = t
    at hdeadline
  have hcur : t.processCurrent = some node := by rw [← ht]; exact hnode
  have hrun' : Running t := by rw [← ht]; exact hrun
  by_cases howns : (t.proc node.data).ownedMutexId ≠ noMutexOwned
  · rw [if_pos howns]
    cases hindex : t.findMutexById (t.proc node.data).ownedMutexId with
    | none => exact .head hdeadline (.single (.crash t))
    | some index =>
        rw [Option.bind_some]
        have hidx := isMutex_of_find hindex
        have hgive' : A.giveBack node.data := by
          refine hgive node.data index ?_ ?_
          · have := hidx.index_lt
            rw [← ht] at this
            exact this
          · have := hidx.mutexId_eq.symm
            rw [← ht, modProc_proc_self] at this
            exact this
        have hfound : ∀ p', t.FirstIn (.mutex index) p' → Wakes s .stopSelf p' := by
          intro p' hp'
          refine ⟨node, index, hnode, ?_, ?_⟩
          · have hfound := hindex
            rw [← ht, modProc_proc_self] at hfound
            exact hfound
          · rw [← ht] at hp'
            exact hp'
        have hgrant' : ∀ p', t.FirstIn (.mutex index) p' → A.grant p' := fun p' hp' =>
          hgrant p' (hfound p' hp')
        split
        · exact .head hdeadline (.single (.crash t))
        · next t' ht' =>
            obtain ⟨hmoves, ⟨hctl, hcaller⟩, howned⟩ := resetOwnedMutex_moves (A := A) hrun' hidx.index_lt
              hidx.mutexId_eq.symm rfl (Or.inr hcur) (fun _ c hc => by
                rw [hcur] at hc
                cases hc
                rfl) hgive' hgrant' ht'
            refine .head hdeadline (.trans hmoves (.single (.stopSelf t' node.data ⟨?_, ?_⟩ ?_)))
            · exact hrun'.congr hctl
            · exact hcaller node hcur
            · exact hquit node t' hnode (howned.imp_right (hfound node.data))
  · rw [if_neg howns]
    exact .head hdeadline (.single (.stopSelf t node.data ⟨hrun', node, hcur, rfl⟩
      (hquit node t hnode (Or.inl (not_not.mp howns)))))

/-! ## Preemption lock -/

theorem refreshLockLevel_moves (s : Pcb) (rc : ReturnCode) : Moves A s (s.refreshLockLevel rc).1 := by
  unfold refreshLockLevel
  split
  · exact .refl
  · exact frame_moves (frame_counters s _ s.errorListCb s.lastTick _ _ _ _)

theorem thenRefreshLockLevel_moves {o : Outcome} (h : Moves A s o.1) :
    Moves A s (thenRefreshLockLevel o).1 := by
  unfold thenRefreshLockLevel
  split
  · exact h
  · exact .trans h (refreshLockLevel_moves _ _)

theorem lockPreemption_moves (hrun : Running s) (hA : PermitsCall A s .lockPreemption) :
    Moves A s s.lockPreemption.1 := by
  unfold lockPreemption
  refine withCurrent_moves fun node hnode => ?_
  split
  · exact .refl
  · exact thenRefreshLockLevel_moves (krnlAcquireMutex_moves hrun hA.1 hA.2 (fun _ => rfl)
      fun _ _ => by constructor)

theorem unlockPreemption_moves (hrun : Running s)
    (hgive : ∀ p i, i < s.res.mutexCount →
      (s.proc p).ownedMutexId = (s.res.mutexes i).mutexId → A.giveBack p)
    (hgrant : ∀ p, Wakes s .unlockPreemption p → A.grant p) :
    Moves A s s.unlockPreemption.1 := by
  unfold unlockPreemption
  refine withCurrent_moves fun node hnode => ?_
  split
  · exact .refl
  · split
    · exact .refl
    · exact thenRefreshLockLevel_moves (krnlReleaseMutex_moves hrun hgive hgrant rfl)

/-! ## Errors -/

theorem hmWriteError_moves (s : Pcb) (error : ErrorStatus) : Moves A s (s.hmWriteError error) :=
  frame_moves (frame_counters s s.status.lockLevel _ s.lastTick _ _ _ _)

/-- Only an ignored error changes a process, and it is one with the identifier of the caller. -/
theorem hmRaisePartitionError_moves {error : ErrorStatus} {c : Node}
    (hc : s.processCurrent = some c) (hid : error.failedProcessId = (s.proc c.data).processId)
    (hA : MayIgnore A s (s.proc c.data).processId) : Moves A s (s.hmRaisePartitionError error) := by
  unfold hmRaisePartitionError
  split
  · split
    · exact .refl
    · next node hnode =>
        obtain ⟨hmem, hnodeId⟩ := isProcessIdExisted_eq_some hnode
        exact .single (.ignore s node c hmem hc (hnodeId.trans hid) (hA node (hid ▸ hnode)))
  · exact .refl

theorem wakeErrorHandler_eq_some {p : Nat} (h : s.wakeErrorHandler p = some s') :
    s' = s.modProc p fun x => { x with processState := .ready, context := .entry } := by
  unfold wakeErrorHandler at h
  split at h
  · cases h
    rfl
  · cases h

theorem wokenErrorHandler_moves {p : Nat} (hp : s.errorHandlerProcess = some p) :
    Moves A s ((s.wakeErrorHandler p).getD s) := by
  cases hwake : s.wakeErrorHandler p with
  | none => exact .refl
  | some t =>
      rw [Option.getD_some, wakeErrorHandler_eq_some hwake]
      exact .single (.readyHandler s p hp)

theorem raiseToErrorHandler_moves (hrun : Running s) {node : Node}
    (hnode : s.processCurrent = some node) (error : ErrorStatus) :
    Moves A s (s.raiseToErrorHandler node.data error).1 := by
  unfold raiseToErrorHandler
  refine .trans (hmWriteError_moves s error) ?_
  dsimp only
  split
  · exact .single (.crash _)
  · next p hp =>
      split
      · exact .refl
      · next t ht =>
          rw [wakeErrorHandler_eq_some ht]
          refine .head (.readyHandler _ p hp) (yield_moves ?_ ?_ _ rfl)
          · exact hrun
          · exact hnode

theorem raiseApplicationError_moves (hrun : Running s) {errorCode : ErrorCode} {messageAddr : Area}
    {length : Int} (hA : PermitsCall A s (.raiseApplicationError errorCode messageAddr length)) :
    Moves A s (s.raiseApplicationError errorCode messageAddr length).1 := by
  unfold raiseApplicationError
  refine withCurrent_moves fun node hnode => ?_
  dsimp only
  refine refused_moves fun _ => refused_moves fun _ => ?_
  split
  · exact hmRaisePartitionError_moves hnode rfl (hA node hnode).1
  · next hhandler =>
      split
      · next hfull =>
          exact .single (.blockOnErrors s node.data _ _ ⟨hrun, node, hnode, rfl⟩ rfl
            ((hA node hnode).2 (fun h => hhandler (Or.inl h)) hfull))
      · exact raiseToErrorHandler_moves hrun hnode _

theorem hmRaiseError_moves (hrun : Running s) {errorCode : ErrorCode} {messageAddr : Area} {length : Int}
    (hA : Permits A s (.fault errorCode messageAddr length)) :
    Moves A s (s.hmRaiseError errorCode messageAddr length).1 := by
  unfold hmRaiseError
  refine withCurrent_moves fun node hnode => ?_
  obtain ⟨herror, hignore⟩ := hA.fault _ _ _ rfl node hnode
  refine .head (.fault s node.data ⟨hrun, node, hnode, rfl⟩ herror) ?_
  have hid : ((s.modProc node.data fun x => { x with processState := .faulted }).proc
      node.data).processId = (s.proc node.data).processId := by
    rw [modProc_proc_self]
  rw [← hid] at hignore
  dsimp only
  split
  · exact .tail (hmRaisePartitionError_moves hnode rfl hignore) (.toOs _)
  · next p hp =>
      split
      · exact .tail (hmRaisePartitionError_moves hnode rfl hignore) (.toOs _)
      · refine .tail (.trans ?_ (wokenErrorHandler_moves ?_)) (.toOs _)
        · exact hmWriteError_moves _ _
        · exact hp

theorem getErrorStatus_moves (hwakes : ∀ p, Wakes s .getErrorStatus p → A.wake p) :
    Moves A s s.getErrorStatus.1 := by
  unfold getErrorStatus
  refine withCurrent_moves fun node hnode => ?_
  refine refused_moves fun _ => refused_moves fun hsome => ?_
  have hread : Frame s s.hmReadError.1 :=
    frame_counters s s.status.lockLevel _ s.lastTick _ _ _ _
  refine .head (.frame hread) ?_
  dsimp only
  split
  · exact .refl
  · next p t hwake =>
      have hfirst : s.FirstIn .errorProcesses p := wakeFirst_firstIn (s := s.hmReadError.1) hwake
      exact .head (.wake _ _ _ hwake (fun i hi => WaitList.noConfusion hi) (hwakes p ⟨hsome, hfirst⟩) rfl)
        (hmWriteError_moves t _)

/-! ## The loop of the partition OS -/

/-- The status of the partition, the code it executes and the memory of the kernel are the same. -/
structure SameOs (s s' : Pcb) : Prop where
  status : s'.status = s.status
  ctl : s'.ctl = s.ctl
  krnl : s'.krnl = s.krnl

theorem SameOs.trans {s s' s'' : Pcb} (h : SameOs s s') (h' : SameOs s' s'') : SameOs s s'' :=
  ⟨h'.status.trans h.status, h'.ctl.trans h.ctl, h'.krnl.trans h.krnl⟩

theorem SameOs.refl (s : Pcb) : SameOs s s := ⟨rfl, rfl, rfl⟩

/-- What the ports of a new tick leave alone, with the lists of all but one port. -/
structure SameBut (index : Nat) (s s' : Pcb) : Prop extends SameOs s s' where
  res : s'.res = s.res
  lists : ∀ q, q ≠ .queuingPort index → s'.waitingProcesses q = s.waitingProcesses q

/-- The first waiter of a list is woken, if there is one. -/
theorem wokenFirst_moves {index : Nat} (s : Pcb)
    (hA : ∀ p, s.FirstIn (.queuingPort index) p → A.wake p) :
    Moves A s (s.wokenFirst (.queuingPort index)) ∧ SameBut index s (s.wokenFirst (.queuingPort index))
      ∧ (s.wokenFirst (.queuingPort index)).waitingProcesses (.queuingPort index)
        = (s.waitingProcesses (.queuingPort index)).tail := by
  rcases wokenFirst_cases s (.queuingPort index) with ⟨hnone, h⟩ | ⟨p, h⟩
  · rw [h]
    refine ⟨.refl, ⟨.refl _, rfl, fun _ _ => rfl⟩, ?_⟩
    rw [hnone]
    rfl
  · refine ⟨.single (.wake _ _ p h (fun i hi => WaitList.noConfusion hi) (hA p (wakeFirst_firstIn h)) rfl), ?_⟩
    obtain ⟨rest, hlist, heq⟩ := wakeFirst_eq_some h
    rw [heq]
    refine ⟨⟨⟨rfl, rfl, rfl⟩, rfl, fun q hq => Function.update_of_ne hq _ _⟩, ?_⟩
    dsimp only
    rw [Function.update_self, hlist]
    rfl

theorem checkPort_moves (s : Pcb) {index c : Nat} (hc : (s.res.queuingPorts index).channel = some c)
    (hA : ∀ p ∈ (s.waitingProcesses (.queuingPort index)).take (s.portWakes index), A.wake p) :
    Moves A s (s.checkPort index c) ∧ SameBut index s (s.checkPort index c) := by
  have hfirst : ∀ t : Pcb, ∀ n, t.waitingProcesses (.queuingPort index)
        = (s.waitingProcesses (.queuingPort index)).drop n → n < s.portWakes index →
      ∀ p, t.FirstIn (.queuingPort index) p → A.wake p := by
    rintro t n hdrop hn p ⟨rest, hlist⟩
    refine hA p ?_
    rw [hlist] at hdrop
    rw [List.mem_take_iff_getElem]
    have hlt : n < (s.waitingProcesses (.queuingPort index)).length := by
      by_contra hge
      rw [List.drop_eq_nil_of_le (not_lt.mp hge)] at hdrop
      cases hdrop
    refine ⟨n, lt_min hn hlt, ?_⟩
    rw [List.drop_eq_getElem_cons hlt] at hdrop
    cases hdrop
    rfl
  unfold portWakes at hfirst
  rw [hc] at hfirst
  dsimp only at hfirst
  rw [checkPort_eq]
  split_ifs with hroom hmessage hmessage
  · rw [if_pos hroom, if_pos hmessage] at hfirst
    obtain ⟨hmoves, hsame, htail⟩ := wokenFirst_moves s (hfirst s 0 rfl (by decide))
    obtain ⟨hmoves', hsame', -⟩ := wokenFirst_moves (s.wokenFirst (.queuingPort index))
      (hfirst _ 1 (htail.trans List.drop_one.symm) (by decide))
    exact ⟨.trans hmoves hmoves', ⟨hsame.toSameOs.trans hsame'.toSameOs, hsame'.res.trans hsame.res,
      fun q hq => (hsame'.lists q hq).trans (hsame.lists q hq)⟩⟩
  · rw [if_pos hroom] at hfirst
    obtain ⟨hmoves, hsame, -⟩ := wokenFirst_moves s (hfirst s 0 rfl (by omega))
    exact ⟨hmoves, hsame⟩
  · rw [if_pos hmessage] at hfirst
    obtain ⟨hmoves, hsame, -⟩ := wokenFirst_moves s (hfirst s 0 rfl (by omega))
    exact ⟨hmoves, hsame⟩
  · exact ⟨.refl, .refl _, rfl, fun _ _ => rfl⟩

/-- The ports are looked at in order, up to the first without a channel. -/
theorem checkPortsFrom_moves (n : Nat) (index : Nat) (s : Pcb)
    (hA : ∀ i, index ≤ i → i < index + n →
      (∀ j, index ≤ j → j ≤ i → (s.res.queuingPorts j).channel.isSome) →
        ∀ p ∈ (s.waitingProcesses (.queuingPort i)).take (s.portWakes i), A.wake p) :
    Moves A s (checkPortsFrom index n s) ∧ SameOs s (checkPortsFrom index n s) := by
  induction n generalizing index s with
  | zero => exact ⟨.refl, .refl _⟩
  | succ n ih =>
      rw [checkPortsFrom]
      split
      · exact ⟨.refl, .refl _⟩
      · next c hc =>
          have hself : (s.res.queuingPorts index).channel.isSome := by rw [hc]; rfl
          obtain ⟨hmoves, hsame⟩ := checkPort_moves (A := A) s hc
            (hA index le_rfl (by omega) fun j hj hj' => by rw [le_antisymm hj' hj]; exact hself)
          obtain ⟨hmoves', hsame'⟩ := ih (index + 1) (s.checkPort index c) fun i hi hi' hchannels => by
            rw [hsame.lists _ (by simp; omega), portWakes, hsame.res, hsame.krnl]
            refine hA i (by omega) (by omega) fun j hj hj' => ?_
            rcases Nat.eq_or_lt_of_le hj with rfl | hlt
            · exact hself
            · have hsome := hchannels j hlt hj'
              rwa [hsame.res] at hsome
          exact ⟨.trans hmoves hmoves', hsame.toSameOs.trans hsame'⟩

/-- The same for all the ports. -/
theorem checkPorts_moves (s : Pcb) (hA : ∀ p, s.WokenAtPort p → A.wake p) :
    Moves A s s.checkAvailableResourcesOnPartitionPort
      ∧ SameOs s s.checkAvailableResourcesOnPartitionPort :=
  checkPortsFrom_moves _ 0 s fun i _ hi hchannels p hp =>
    hA p ⟨i, ⟨by omega, fun j hj => hchannels j (Nat.zero_le j) hj⟩, hp⟩

/-- Releasing a process leaves its time-out alone. -/
theorem checkAndRelease_timeCounter (uptime : Nat) (x : Process) :
    (checkAndReleasePeriodicWaitingProcesses uptime x).timeCounter = x.timeCounter := by
  unfold checkAndReleasePeriodicWaitingProcesses
  split_ifs <;> rfl

/-- The clock's part of a new tick: release, then time-outs. -/
theorem clock_moves (hctl : s.ctl = .partitionOs)
    (hrelease : MayRelease A s)
    (hA : MayExpire A (s.forEachProcess (checkAndReleasePeriodicWaitingProcesses s.krnl.uptime))) :
    Moves A s s.arincTimeUpdatePartition ∧ SameOs s s.arincTimeUpdatePartition := by
  unfold arincTimeUpdatePartition
  have hrelease := Move.release (A := A) s hctl hrelease
  rw [forEachProcess_eq] at hrelease hA ⊢
  have htimeOuts := Move.timeOuts (A := A) { s with
    proc := visited s.processes (checkAndReleasePeriodicWaitingProcesses s.krnl.uptime) s.proc } hctl hA
  rw [forEachProcess_eq] at htimeOuts ⊢
  exact ⟨.tail (.single hrelease) htimeOuts, rfl, rfl, rfl⟩

theorem newTick_moves (hctl : s.ctl = .partitionOs) (hA : MayTick A s) :
    Moves A s s.newTick ∧ SameOs s s.newTick := by
  have htick : Frame s { s with lastTick := s.krnl.ticks } :=
    frame_counters s s.status.lockLevel s.errorListCb s.krnl.ticks _ _ _ _
  obtain ⟨hclock, hsame⟩ := clock_moves (s := { s with lastTick := s.krnl.ticks }) hctl hA.release
    hA.expire
  have hwoken : ∀ p, WokenAtPort ({ s with lastTick := s.krnl.ticks } : Pcb).arincTimeUpdatePartition p →
      A.wake p := by
    intro p hp
    unfold arincTimeUpdatePartition at hp
    rw [forEachProcess_eq, forEachProcess_eq] at hp
    exact hA.ports p hp
  obtain ⟨hports, hsame'⟩ := checkPorts_moves _ hwoken
  obtain ⟨hstatus, hctl', hkrnl⟩ := hsame.trans hsame'
  exact ⟨.head (.frame htick) (.trans hclock hports), hstatus, hctl', hkrnl⟩

theorem processSchedule_same (s : Pcb) : SameOs s s.processSchedule := by
  obtain ⟨proc, current, heq, -, -⟩ := processSchedule_eq s
  rw [heq]
  exact ⟨rfl, rfl, rfl⟩

/-- The partition OS after its tick, if there is one, and its scheduler. -/
def dispatched (s : Pcb) : Pcb :=
  (if s.krnl.ticks ≠ s.lastTick then s.newTick else s).processSchedule

theorem mayTick_all (s : Pcb) : MayTick .all s :=
  ⟨fun _ _ _ => trivial, fun _ _ _ => trivial, fun _ _ => trivial⟩

theorem dispatched_moves (hctl : s.ctl = .partitionOs) (hmode : ¬ Starting s)
    (hdispatch : A.dispatch) (hA : s.krnl.ticks ≠ s.lastTick → MayTick A s) :
    Moves A s s.dispatched ∧ SameOs s s.dispatched := by
  have htick : Moves A s (if s.krnl.ticks ≠ s.lastTick then s.newTick else s)
      ∧ SameOs s (if s.krnl.ticks ≠ s.lastTick then s.newTick else s) := by
    split
    · next htick => exact newTick_moves hctl (hA htick)
    · exact ⟨.refl, .refl s⟩
  unfold dispatched
  generalize (if s.krnl.ticks ≠ s.lastTick then s.newTick else s) = t at htick
  obtain ⟨hmoves, hsame⟩ := htick
  exact ⟨.tail hmoves (.schedule t (hsame.ctl.trans hctl) (by rw [Starting, hsame.status]; exact hmode)
    hdispatch),
    hsame.trans (processSchedule_same t)⟩

theorem dispatched_same (hctl : s.ctl = .partitionOs) (hmode : ¬ Starting s) : SameOs s s.dispatched :=
  (dispatched_moves (A := .all) hctl hmode trivial fun _ => mayTick_all s).2

/-- A process resumes in the service it yielded in. -/
theorem resumeContext_moves {node : Node} (hrun : Running s) (hnode : s.processCurrent = some node) :
    Moves A s (s.resumeContext node.data).1 := by
  have hcalls : Calls s node.data := ⟨hrun, node, hnode, rfl⟩
  have hfinish : ∀ timed, Moves A s (s.finishWait node.data timed).1 := by
    intro timed
    unfold finishWait
    split <;> exact .refl
  unfold resumeContext
  cases (s.proc node.data).context with
  | entry | setPriority | resume | start | delayedStart | timedWait | periodicWait
  | displayBlackboard | sendBufferDone | signalSemaphore | setEvent | releaseMutex | resetMutex
  | raiseApplicationError => exact .refl
  | suspendSelf => exact hfinish true
  | stop =>
      dsimp only
      split <;> exact .refl
  | lockPreemption | unlockPreemption => exact refreshLockLevel_moves s _
  | waitSemaphore timed | waitEvent timed | acquireMutex timed | sendBuffer timed =>
      exact hfinish timed
  | readBlackboard index timed =>
      dsimp only
      split <;> exact .refl
  | receiveBufferDone index message length => exact receivedMessage_moves s _ _ _ _
  | receiveBuffer index timed =>
      dsimp only
      split
      · exact .refl
      · exact receivedMessage_moves s _ _ _ _
  | aperiodicWaitEvent => exact finishAperiodicWaitEvent_moves hcalls
  | sendQueuingMessage index messageAddr length timeOut =>
      dsimp only
      refine refused_moves fun _ => ?_
      split
      · exact .single (.crash s)
      · next c hc =>
          refine .trans (setQueuingChannel_moves (c := c)
            (x := (s.krnl.queuingChannels c).channelEnqueue messageAddr length) rfl) ?_
          split
          · refine .single (.timerOff _ node.data ?_)
            exact hcalls
          · exact .refl
  | receiveQueuingMessage index timeOut =>
      dsimp only
      refine refused_moves fun _ => ?_
      split
      · exact .single (.crash s)
      · next c hc =>
          split
          · exact .head (.timerOff s node.data hcalls) (takeFromChannel_moves _ c)
          · exact takeFromChannel_moves s c
  | raiseApplicationErrorFull error => exact raiseToErrorHandler_moves hrun hnode error

/-- A turn of the loop: the entry point, or the process dispatched, or nobody. -/
theorem partitionOsLoop_eq (s : Pcb) :
    s.partitionOsLoop = if s.status.operatingMode = .coldStart ∨ s.status.operatingMode = .warmStart
      then ({ s with ctl := .mainProcess }, none)
      else match s.dispatched.processCurrent with
        | none => (s.dispatched, none)
        | some node =>
          if s.dispatched.status.operatingMode = .normal then
            { s.dispatched with ctl := .process }.resumeContext node.data
          else (s.dispatched, none) := rfl

/-- What follows the tick up to the dispatch, from a state whose moves lead to the end of the tick. -/
theorem afterTick_dispatched {t : Pcb} (hctl : s.ctl = .partitionOs) (hstarting : ¬ Starting s)
    (hdispatch : A.dispatch) (htick : Moves A t (if s.krnl.ticks ≠ s.lastTick then s.newTick else s)) :
    Moves A t s.dispatched := by
  have hsame : SameOs s (if s.krnl.ticks ≠ s.lastTick then s.newTick else s) := by
    split
    · exact (newTick_moves hctl (mayTick_all s)).2
    · exact .refl s
  unfold dispatched
  refine .tail htick (.schedule _ (hsame.ctl.trans hctl) ?_ hdispatch)
  rw [Starting, hsame.status]
  exact hstarting

/-- The rest of a turn of the loop. -/
theorem afterTick_moves {t : Pcb} (hctl : s.ctl = .partitionOs) (hstarting : ¬ Starting s)
    (hdispatch : A.dispatch) (htick : Moves A t (if s.krnl.ticks ≠ s.lastTick then s.newTick else s)) :
    Moves A t s.partitionOsLoop.1 := by
  have hdispatched := afterTick_dispatched hctl hstarting hdispatch htick
  unfold Starting at hstarting
  rw [partitionOsLoop_eq, if_neg hstarting]
  refine .trans hdispatched ?_
  split
  · exact .refl
  · next node hnode =>
      obtain ⟨hmem, hself⟩ := processSchedule_current hnode
      split
      · next hmode =>
          refine .head (.run _ node hnode hmem hself hmode) (resumeContext_moves ?_ hnode)
          exact Or.inl rfl
      · exact .refl

theorem partitionOsLoop_moves (hctl : s.ctl = .partitionOs)
    (hA : ¬ Starting s → A.dispatch ∧ (s.krnl.ticks ≠ s.lastTick → MayTick A s)) :
    Moves A s s.partitionOsLoop.1 := by
  by_cases hstarting : s.status.operatingMode = .coldStart ∨ s.status.operatingMode = .warmStart
  · rw [partitionOsLoop_eq, if_pos hstarting]
    exact .single (.main s hstarting)
  · obtain ⟨hdispatch, htick⟩ := hA hstarting
    refine afterTick_moves hctl hstarting hdispatch ?_
    split
    · next hnew => exact (newTick_moves hctl (htick hnew)).1
    · exact .refl

/-! ## Modes -/

theorem setPartitionMode_moves (hrun : Running s) {operatingMode : Int}
    (hA : PermitsCall A s (.setPartitionMode operatingMode)) :
    Moves A s (s.setPartitionMode operatingMode).1 := by
  unfold setPartitionMode
  split
  · exact .refl
  · next mode hmode =>
      refine refused_moves fun hnormal => refused_moves fun _ => ?_
      dsimp only
      cases mode with
      | idle =>
          exact .tail (.single (.toIdle s (hA _ hmode)))
            (.frame (frame_krnl rfl (fun _ => rfl) fun _ => rfl))
      | coldStart => exact .single (.toStart s .coldStart (Or.inl rfl) (hA _ hmode))
      | warmStart => exact .single (.toStart s .warmStart (Or.inr rfl) (hA _ hmode))
      | normal =>
          have hnot : s.status.operatingMode ≠ .normal := fun h => hnormal ⟨rfl, h⟩
          unfold startProcesses
          generalize PartitionConf.throughPointer _ _ = point
          have hmove := Move.toNormal s point hrun hnot (hA _ hmode)
          rw [forEachProcess_eq] at hmove ⊢
          dsimp only
          split
          · exact .single hmove
          · next p hp =>
              refine .tail (.single hmove) (.initHandler _ p ?_)
              exact hp

/-! ## A step -/

theorem exec_moves {service : Service} (hrun : Running s)
    (hone : s.status.operatingMode = .normal → OneRunning s)
    (hA : Permits A s (.call service)) : Moves A s (s.exec service).1 := by
  have hcall := hA.call service rfl
  have hwake : ¬ GivesMutexBack (.call service) → ∀ p, Wakes s service p → A.wake p :=
    fun h p hp => (hA.wake service rfl p hp).2 h
  have hgrant : GivesMutexBack (.call service) → ∀ p, Wakes s service p → A.grant p :=
    fun h p hp => (hA.wake service rfl p hp).1 h
  cases service with
  | createProcess attributes => exact createProcess_moves hrun hcall
  | initializeProcessCoreAffinity processId core => exact initializeProcessCoreAffinity_moves _ _
  | setPriority processId priority => exact setPriority_moves hrun hcall
  | suspendSelf timeOut => exact suspendSelf_moves hrun hcall
  | suspend processId => exact suspend_moves hcall
  | resume processId => exact resume_moves hrun hcall
  | stopSelf => exact stopSelf_moves hrun (hA.giveBack trivial) (hgrant trivial) hcall
  | stop processId => exact stop_moves hrun hcall
  | start processId => exact start_moves hrun hcall
  | delayedStart processId delayTime => exact delayedStart_moves hrun hcall
  | lockPreemption => exact lockPreemption_moves hrun hcall
  | unlockPreemption => exact unlockPreemption_moves hrun (hA.giveBack trivial) (hgrant trivial)
  | timedWait delayTime => exact timedWait_moves hrun hcall
  | periodicWait => exact periodicWait_moves hrun hcall
  | replenish budgetTime => exact replenish_moves hrun _
  | createBlackboard name size => exact createBlackboard_moves _ _
  | displayBlackboard blackboardId messageAddr length => exact displayBlackboard_moves hrun (hwake id)
  | readBlackboard blackboardId timeOut => exact readBlackboard_moves hrun hcall
  | clearBlackboard blackboardId => exact clearBlackboard_moves _
  | createBuffer name size number discipline => exact createBuffer_moves _ _ _ _
  | sendBuffer bufferId messageAddr length timeOut => exact sendBuffer_moves hrun hcall (hwake id)
  | receiveBuffer bufferId timeOut messageAddr => exact receiveBuffer_moves hrun hcall (hwake id)
  | createSemaphore name value maximum discipline => exact createSemaphore_moves _ _ _ _
  | waitSemaphore semaphoreId timeOut => exact waitSemaphore_moves hrun hcall
  | signalSemaphore semaphoreId => exact signalSemaphore_moves hrun (hwake id)
  | createEvent name => exact createEvent_moves _
  | setEvent eventId => exact setEvent_moves hrun (hwake id)
  | resetEvent eventId => exact resetEvent_moves _
  | waitEvent eventId timeOut => exact waitEvent_moves hrun hcall
  | aperiodicWaitEvent eventId => exact aperiodicWaitEvent_moves hrun hcall
  | createMutex name priority discipline => exact createMutex_moves _ _ _
  | acquireMutex mutexId timeOut =>
    exact refused_moves fun _ =>
      krnlAcquireMutex_moves hrun hcall.1 hcall.2 (fun _ => rfl) fun _ _ => by constructor
  | releaseMutex mutexId => 
      exact refused_moves fun _ => krnlReleaseMutex_moves hrun (hA.giveBack trivial) (hgrant trivial) rfl
  | resetMutex mutexId processId => exact resetMutex_moves hrun hone (hA.giveBack trivial) (hgrant trivial)
  | createSamplingPort name size direction period => exact createSamplingPort_moves hcall
  | writeSamplingMessage portId messageAddr length => exact writeSamplingMessage_moves _ _ _
  | readSamplingMessage portId => exact readSamplingMessage_moves _
  | createQueuingPort name size number direction discipline => exact createQueuingPort_moves hcall
  | sendQueuingMessage portId messageAddr length timeOut => exact sendQueuingMessage_moves hrun hcall
  | receiveQueuingMessage portId timeOut => exact receiveQueuingMessage_moves hrun hcall
  | clearQueuingPort portId => exact clearQueuingPort_moves _
  | createErrorHandler stackSize => exact createErrorHandler_moves hrun hcall
  | raiseApplicationError errorCode messageAddr length => exact raiseApplicationError_moves hrun hcall
  | getErrorStatus => exact getErrorStatus_moves (hwake id)
  | setPartitionMode mode => exact setPartitionMode_moves hrun hcall

/-- Every step is a sequence of moves. -/
theorem step_moves {e : Action} (hone : s.status.operatingMode = .normal → OneRunning s)
    (hA : Permits A s e) (h : s.step e = some s') : Moves A s s' := by
  unfold step stepOutcome at h
  cases e with
  | call service =>
      dsimp only at h
      split at h
      · next hrun =>
          cases h
          exact exec_moves hrun hone hA
      · cases h
  | fault errorCode messageAddr length =>
      dsimp only at h
      split at h
      · next hctl =>
          cases h
          exact hmRaiseError_moves (Or.inl hctl) hA
      · cases h
  | mainReturn =>
      dsimp only at h
      split at h
      · cases h
        exact .single (.toOs s)
      · cases h
  | loop =>
      dsimp only at h
      split at h
      · next hctl =>
          cases h
          exact partitionOsLoop_moves hctl (hA.loop rfl)
      · cases h
  | kernel uptime ticks windowsIdx majorFrameCount samplingChannels queuingChannels =>
      dsimp only at h
      split at h
      · cases h
        exact frame_moves (frame_krnl rfl (fun _ => rfl) fun _ => rfl)
      · cases h

end Pcb

end UcxArinc
