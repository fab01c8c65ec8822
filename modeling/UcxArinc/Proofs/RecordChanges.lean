import UcxArinc.Proofs.ControlFlow

set_option autoImplicit false

/-! # What a move does to one record

Most invariants speak of one process at a time. `Change` lists what a move may do to the record of a
given process, with what the code has checked before it; `Move.change` says that nothing else happens,
so that such an invariant needs one case for each kind of change and none for the rest of the state. -/

namespace UcxArinc

namespace Pcb

variable {A : Permit} {s s' : Pcb} {p : Nat}

/-! ## Passes over the processes -/

/-- A pass visits the record of a process as often as the process is linked. -/
theorem visited_iterate (nodes : List Node) (f : Process → Process) (proc : Nat → Process) (p : Nat) :
    visited nodes f proc p = f^[(nodes.map Node.data).count p] (proc p) := by
  unfold visited
  induction nodes generalizing proc with
  | nil => rfl
  | cons n nodes ih =>
      rw [List.foldl_cons, ih, List.map_cons, List.count_cons]
      by_cases hp : n.data = p
      · rw [hp, Function.update_self, beq_self_eq_true, if_pos rfl, Function.iterate_succ_apply]
      · rw [Function.update_of_ne (Ne.symm hp), if_neg (by simpa using hp), Nat.add_zero]

/-- A pass that need not be repeated leaves a record alone or runs once on it. -/
theorem visited_cases {nodes : List Node} {f : Process → Process} {proc : Nat → Process}
    (hf : ∀ x, f (f x) = f x) (p : Nat) : visited nodes f proc p = proc p
      ∨ (∃ n ∈ nodes, n.data = p) ∧ visited nodes f proc p = f (proc p) := by
  rw [visited_iterate]
  have hiterate : ∀ k, f^[k + 1] (proc p) = f (proc p) := by
    intro k
    induction k with
    | zero => rfl
    | succ k ih => rw [Function.iterate_succ_apply', ih, hf]
  cases hcount : (nodes.map Node.data).count p with
  | zero => exact Or.inl rfl
  | succ k =>
      have hmem : p ∈ nodes.map Node.data := by
        rw [← List.count_pos_iff, hcount]
        exact Nat.succ_pos k
      exact Or.inr ⟨List.mem_map.mp hmem, hiterate k⟩

/-- On a linked process it does run. -/
theorem visited_of_linked {nodes : List Node} {f : Process → Process} {proc : Nat → Process}
    (hf : ∀ x, f (f x) = f x) (h : ∃ n ∈ nodes, n.data = p) :
    visited nodes f proc p = f (proc p) := by
  rcases @visited_cases nodes f proc hf p with hsame | ⟨-, hvisited⟩
  · rw [visited_iterate] at hsame ⊢
    obtain ⟨k, hk⟩ := Nat.exists_eq_succ_of_ne_zero
      (List.count_pos_iff.mpr (List.mem_map.mpr h)).ne'
    rw [hk, Function.iterate_succ_apply'] at hsame ⊢
    -- the record is a value of the pass, and so fixed
    have hfixed : f (proc p) = proc p := by
      rw [← hsame]
      exact hf _
    rw [hsame, hfixed]
  · exact hvisited

theorem checkAndRelease_idem (uptime : Nat) (x : Process) :
    checkAndReleasePeriodicWaitingProcesses uptime (checkAndReleasePeriodicWaitingProcesses uptime x)
      = checkAndReleasePeriodicWaitingProcesses uptime x := by
  have hready : ∀ y : Process, y.processState = .ready →
      checkAndReleasePeriodicWaitingProcesses uptime y = y := by
    intro y hy
    unfold checkAndReleasePeriodicWaitingProcesses
    refine if_neg fun hc => ?_
    rw [hy] at hc
    cases hc.1
  by_cases hdue : x.processState = .waiting ∧
      (x.attributes.period ≠ infiniteTimeValue ∨
        (x.savedInitDelay ≠ 0 ∧ x.attributes.period = infiniteTimeValue)) ∧
      u64 x.releasePointTime ≤ uptime
  · refine hready _ ?_
    unfold checkAndReleasePeriodicWaitingProcesses
    rw [if_pos hdue]
    split <;> rfl
  · have hsame : checkAndReleasePeriodicWaitingProcesses uptime x = x := if_neg hdue
    rw [hsame, hsame]

theorem checkTimeouts_idem (uptime : Nat) (x : Process) :
    checkTimeouts uptime (checkTimeouts uptime x) = checkTimeouts uptime x := by
  by_cases hdue : x.timeCounter ≠ 0 ∧ x.timeCounter ≤ uptime ∧ x.timeCounter ≠ infiniteTimeValue
  · have hexpired : checkTimeouts uptime x
        = { x with isSuspended := false, timeCounter := 0, processState := .ready } := if_pos hdue
    rw [hexpired]
    exact if_neg fun hc => hc.1 rfl
  · have hsame : checkTimeouts uptime x = x := if_neg hdue
    rw [hsame, hsame]

/-- What `SET_PARTITION_MODE(NORMAL)` may do to a record it visits. -/
def ModeStarted (x y : Process) : Prop :=
  ∃ release deadline, y = { x with
    releasePointTime := release
    deadlineTime := deadline
    processState :=
      if x.processState = .waiting ∧ x.attributes.period = infiniteTimeValue ∧
        x.savedInitDelay = 0 ∧ x.isSuspended = false then .ready else x.processState }

theorem ModeStarted.trans {x y z : Process} (h : ModeStarted x y) (h' : ModeStarted y z) :
    ModeStarted x z := by
  obtain ⟨release, deadline, rfl⟩ := h
  obtain ⟨release', deadline', rfl⟩ := h'
  refine ⟨release', deadline', ?_⟩
  dsimp only
  by_cases hready : x.processState = .waiting ∧ x.attributes.period = infiniteTimeValue ∧
      x.savedInitDelay = 0 ∧ x.isSuspended = false
  · rw [if_pos hready, if_neg (fun hc => (nomatch hc.1))]
  · rw [if_neg hready, if_neg hready]

theorem visited_startProcess (nodes : List Node) (uptime : Nat) (point : Int) (proc : Nat → Process)
    (p : Nat) : visited nodes (startProcess uptime point) proc p = proc p
      ∨ (∃ n ∈ nodes, n.data = p)
        ∧ ModeStarted (proc p) (visited nodes (startProcess uptime point) proc p) := by
  rw [visited_iterate]
  cases hcount : (nodes.map Node.data).count p with
  | zero => exact Or.inl rfl
  | succ k =>
      refine Or.inr ⟨?_, ?_⟩
      · have hmem : p ∈ nodes.map Node.data := by
          rw [← List.count_pos_iff, hcount]
          exact Nat.succ_pos k
        exact List.mem_map.mp hmem
      · clear hcount
        induction k with
        | zero => exact startProcess_eq uptime point _
        | succ k ih =>
            rw [Function.iterate_succ_apply']
            exact ih.trans (startProcess_eq uptime point _)

/-! ## The changes -/

/-- A move from state `s` to state `s'` turns record `x` of process `p` into `y`. -/
inductive Change (A : Permit) (s s' : Pcb) (p : Nat) : Process → Process → Prop
  | same (x : Process) : Change A s s' p x x
  | touch {x y : Process} (h : Touched x y) (hdeadline : Calls s p ∨ y.deadlineTime = x.deadlineTime) :
      Change A s s' p x y
  | setPriority (x : Process) (priority : Int) (hfree : x.ownedMutexId = noMutexOwned)
      (hmax : priority ≤ maxPriorityValue) (hA : A.prioritize p) :
      Change A s s' p x { x with currentPriority := priority }
  -- blocking
  | block (x : Process) (q : WaitList) (linked : Bool) (timer : Option Int) (k : Context)
      (hcalls : Calls s p) (hkind : q.kind.isSome)
      (hmutex : ∀ i, q = .mutex i → MustWaitForMutex s p i ∧ linked = true) (hown : k ≠ .suspendSelf)
      (hA : A.block s p q timer) (hfrom : ResumesFrom q k) :
      Change A s s' p x { blockedRecord q linked timer x with context := k }
  | blockOnErrors (x : Process) (error : ErrorStatus) (k : Context) (hcalls : Calls s p)
      (hown : k ≠ .suspendSelf) (hA : A.block s p .errorProcesses none)
      (hk : k = .raiseApplicationErrorFull error) :
      Change A s s' p x { x with processState := .waiting, pendingError := error, context := k }
  | sleep {x y : Process} (k : Context) (timer : Option Int) (hcalls : Calls s p)
      (hf : SleepsAs k timer x y) (hA : A.sleep s p k timer)
      (hsleeps : k = .suspendSelf ∨ k = .timedWait ∨ k = .periodicWait) : Change A s s' p x y
  | yield (x : Process) (k : Context) (hcalls : Calls s p) (hown : k ≠ .suspendSelf)
      (hplain : resumesPlainly k = true) :
      Change A s s' p x { x with context := k }
  -- waking
  | wake (x : Process) (q : WaitList) (cancel : Bool) (rest : List Nat) (hq : ∀ i, q ≠ .mutex i)
      (hlist : s.waitingProcesses q = p :: rest) (hA : A.wake p)
      (hrest : s'.waitingProcesses q = rest) (hcancel : cancel = cancelsTimer q) :
      Change A s s' p x (wakeProcess q.kind cancel x)
  | grant (x : Process) (index : Nat) (mutexId : Int) (rest : List Nat)
      (hidx : IsMutex s index mutexId) (hstate : (s.res.mutexes index).mutexState = .available)
      (hlist : s.waitingProcesses (.mutex index) = p :: rest) (hA : A.grant p)
      (hrest : s'.waitingProcesses (.mutex index) = rest) :
      Change A s s' p x { wakeProcess (some .mutex) true x with
        ownedMutexId := mutexId
        currentPriority := (s.res.mutexes index).mutexPriority }
  -- owning
  | acquire (x : Process) (index : Nat) (mutexId : Int) (hcalls : Calls s p)
      (hidx : IsMutex s index mutexId) (hstate : (s.res.mutexes index).mutexState = .available)
      (hfree : x.ownedMutexId = noMutexOwned ∨ x.ownedMutexId = mutexId) (hA : A.acquire p)
      (hnot : s.errorHandlerProcess ≠ some p) :
      Change A s s' p x { x with
        ownedMutexId := mutexId
        currentPriority := (s.res.mutexes index).mutexPriority }
  | takeBack (x : Process) (index : Nat) (mutexId : Int) (hidx : IsMutex s index mutexId)
      (hown : x.ownedMutexId = mutexId) (hA : A.giveBack p) :
      Change A s s' p x { x with
        ownedMutexId := noMutexOwned
        currentPriority := (s.res.mutexes index).savedOwnerPriority }
  -- starting, stopping, suspending
  | suspend (x : Process) (hlinked : ∃ n ∈ s.processes, n.data = p)
      (hother : ∀ c, s.processCurrent = some c → x.processId ≠ (s.proc c.data).processId)
      (hmutex : x.waiting .mutex = none) (howns : x.ownedMutexId = noMutexOwned)
      (hstate : x.processState ≠ .dormant)
      (hA : A.suspend s p) :
      Change A s s' p x { x with isSuspended := true, processState := .waiting }
  | resume (x : Process) (hlinked : ∃ n ∈ s.processes, n.data = p)
      (hstate : x.processState ≠ .dormant)
      (hwas : x.isSuspended = true ∨ x.processState = .faulted) (hA : A.resume s p) :
      Change A s s' p x (resumed x)
  | stop (x : Process) (waiting : WaitKind → Option Nat) (hlinked : ∃ n ∈ s.processes, n.data = p)
      (hother : ∀ c, s.processCurrent = some c → x.processId ≠ (s.proc c.data).processId)
      (hA : A.stop s p) (hlists : s'.waitingProcesses = (s.stopped p).waitingProcesses) :
      Change A s s' p x { makeDormant x with waiting := waiting, deadlineTime := infiniteTimeValue }
  | stopSelf (x : Process) (hcalls : Calls s p) (hA : A.quit s p) : Change A s s' p x (makeDormant x)
  | start {x y : Process} (delayed : Bool) (hlinked : ∃ n ∈ s.processes, n.data = p)
      (hstate : x.processState = .dormant) (hf : StartedAs delayed x y) (hA : A.start p delayed) :
      Change A s s' p x y
  | selfReady (x : Process) (hcalls : Calls s p) (hcan : s.cannotBlock p = false) :
      Change A s s' p x { x with processState := .ready }
  | timerOff (x : Process) (hcalls : Calls s p) : Change A s s' p x { x with timeCounter := 0 }
  -- errors
  | fault (x : Process) (hcalls : Calls s p) (hA : A.error p) :
      Change A s s' p x { x with processState := .faulted }
  | ignore (x : Process) (c : Node) (hlinked : ∃ n ∈ s.processes, n.data = p)
      (hc : s.processCurrent = some c) (hid : x.processId = (s.proc c.data).processId)
      (hA : A.ignore s p) : Change A s s' p x { x with processState := .ready }
  | readyHandler (x : Process) (hp : s.errorHandlerProcess = some p) :
      Change A s s' p x { x with processState := .ready, context := .entry }
  | initHandler (x : Process) (hp : s.errorHandlerProcess = some p) :
      Change A s s' p x { x with context := .entry }
  -- the loop of the partition operating system
  | schedule {x y : Process} (hctl : s.ctl = .partitionOs) (h : Rescheduled x y) (hA : A.dispatch) :
      Change A s s' p x y
  | release (x : Process) (hctl : s.ctl = .partitionOs) (hlinked : ∃ n ∈ s.processes, n.data = p)
      (hA : ReleaseDue s.krnl.uptime x → A.wake p) :
      Change A s s' p x (checkAndReleasePeriodicWaitingProcesses s.krnl.uptime x)
  | timeOuts (x : Process) (hctl : s.ctl = .partitionOs) (hlinked : ∃ n ∈ s.processes, n.data = p)
      (hA : Due s.krnl.uptime x → A.expire s p) :
      Change A s s' p x (checkTimeouts s.krnl.uptime x)
  -- initialisation and mode changes
  | spawn {x y : Process} (hp : p = s.nextProc) (hrun : Running s)
      (hmode : s.status.operatingMode ≠ .normal) (hy : SpawnedAs x y)
      (hA : A.create y.attributes.period) : Change A s s' p x y
  | toNormal {x y : Process} (hrun : Running s) (hmode : s.status.operatingMode ≠ .normal)
      (hlinked : ∃ n ∈ s.processes, n.data = p) (h : ModeStarted x y) (hA : A.mode .normal) :
      Change A s s' p x y

/-- A record rewritten: the change if it is the one of `p`, and none otherwise. -/
theorem change_modProc {p' : Nat} {f : Process → Process}
    (h : p = p' → Change A s s' p (s.proc p) (f (s.proc p))) :
    Change A s s' p (s.proc p) ((s.modProc p' f).proc p) := by
  by_cases hp : p = p'
  · subst hp
    rw [modProc_proc_self]
    exact h rfl
  · rw [modProc_proc_of_ne hp]
    exact .same _

/-- What a move does to the record of a process. -/
theorem Move.change (hm : Move A s s') (p : Nat) : Change A s s' p (s.proc p) (s'.proc p) := by
  cases hm with
  | frame hf =>
      rw [hf.proc]
      exact .same _
  | touch p' f hf hdeadline =>
      refine change_modProc ?_
      rintro rfl
      exact .touch (hf _) (hdeadline.imp_right fun h => h _)
  | moveNode node p' front follow hmovable =>
      rw [(moveNode_rest s node p' front follow).2.1]
      exact .same _
  | block p' q linked discipline timer k hcalls hkind hmutex hk hown hA hfrom =>
      rw [blocked_eq]
      refine change_modProc (f := fun x => { blockedRecord q linked timer x with context := k }) ?_
      rintro rfl
      exact .block _ q linked timer k hcalls hkind hmutex hown hA hfrom
  | blockOnErrors p' error k hcalls hk hA =>
      rw [blockedOnErrors_eq]
      refine change_modProc (f := fun x =>
        { x with processState := .waiting, pendingError := error, context := k }) ?_
      rintro rfl
      exact .blockOnErrors _ error k hcalls (by rw [hk]; exact Context.noConfusion) hA hk
  | setPriority p' priority hfree hmax hA =>
      refine change_modProc (f := fun x => { x with currentPriority := priority }) ?_
      rintro rfl
      exact .setPriority _ priority hfree hmax hA
  | sleep p' f k timer hcalls hk hf hA hsleeps =>
      refine change_modProc ?_
      rintro rfl
      exact .sleep k timer hcalls (hf _) hA hsleeps
  | yield p' k hcalls hk =>
      refine change_modProc (f := fun x => { x with context := k }) ?_
      rintro rfl
      exact .yield _ k hcalls (ne_suspendSelf_of_plain hk) hk
  | wake q cancel p' hwake hq hA hcancel =>
      obtain ⟨rest, hlist, rfl⟩ := wakeFirst_eq_some hwake
      refine change_modProc (f := wakeProcess q.kind cancel) ?_
      rintro rfl
      exact .wake _ q cancel rest hq hlist hA (Function.update_self _ _ _) hcancel
  | handOver index mutexId hhand hidx hstate hA =>
      rcases handMutexOver_proc hhand with hproc | ⟨woken, rest, hlist, hrest, hproc⟩
      · rw [hproc]
        exact .same _
      · rw [hproc]
        split
        · next heq =>
            subst heq
            exact .grant _ index mutexId rest hidx hstate hlist (hA _ ⟨rest, hlist⟩) hrest
        · exact .same _
  | acquire index p' node mutexId hcalls hidx hnode hdata hstate hfree hA hnot =>
      rw [(moveNode_rest _ node p' true true).2.1, giveMutex_proc]
      split
      · next heq =>
          subst heq
          exact .acquire _ index mutexId hcalls hidx hstate hfree hA hnot
      · exact .same _
  | relock index p' mutexId hcalls hidx hstate hmax => exact .same _
  | unlock index p' mutexId hcalls hidx hown hlock => exact .same _
  | takeBack index p' node follow mutexId hrun hidx hown hmovable hA =>
      rw [takenBack_eq, (moveNode_rest _ node p' true follow).2.1]
      refine change_modProc (f := fun x => { x with
        ownedMutexId := noMutexOwned
        currentPriority := (s.res.mutexes index).savedOwnerPriority }) ?_
      rintro rfl
      exact .takeBack _ index mutexId hidx hown hA
  | suspend node hnode hother hmutex howns hstate hA =>
      refine change_modProc ?_
      rintro rfl
      exact .suspend _ ⟨node, hnode, rfl⟩ hother hmutex howns hstate hA
  | resume node hnode hstate hwas hA =>
      refine change_modProc ?_
      rintro rfl
      exact .resume _ ⟨node, hnode, rfl⟩ hstate hwas hA
  | stop node hnode hother hA =>
      obtain ⟨w, l, c, heq⟩ := stopped_eq s node.data
      rw [heq]
      refine change_modProc (f := fun x => { makeDormant x with
        waiting := w
        deadlineTime := infiniteTimeValue }) ?_
      rintro rfl
      exact .stop _ w ⟨node, hnode, rfl⟩ hother hA (by rw [heq])
  | stopSelf p' hcalls hA =>
      refine change_modProc (f := makeDormant) ?_
      rintro rfl
      exact .stopSelf _ hcalls hA
  | start node delayed f hnode hstate hf hA =>
      refine change_modProc ?_
      rintro rfl
      exact .start delayed ⟨node, hnode, rfl⟩ hstate hf hA
  | selfReady p' hcalls hcan =>
      refine change_modProc ?_
      rintro rfl
      exact .selfReady _ hcalls hcan
  | timerOff p' hcalls =>
      refine change_modProc ?_
      rintro rfl
      exact .timerOff _ hcalls
  | fault p' hcalls hA =>
      refine change_modProc ?_
      rintro rfl
      exact .fault _ hcalls hA
  | ignore node c hnode hc hid hA =>
      refine change_modProc ?_
      rintro rfl
      exact .ignore _ c ⟨node, hnode, rfl⟩ hc hid hA
  | readyHandler p' hp' =>
      refine change_modProc ?_
      rintro rfl
      exact .readyHandler _ hp'
  | initHandler p' hp' =>
      refine change_modProc ?_
      rintro rfl
      exact .initHandler _ hp'
  | schedule hctl hmode hA =>
      obtain ⟨proc, current, heq, hproc, -⟩ := processSchedule_eq s
      rw [heq]
      exact .schedule hctl (hproc p) hA
  | release hctl hA =>
      rw [forEachProcess_eq]
      dsimp only
      rcases visited_cases (checkAndRelease_idem s.krnl.uptime) p with h | ⟨hlinked, h⟩
      · rw [h]
        exact .same _
      · rw [h]
        exact .release _ hctl hlinked (hA p hlinked)
  | timeOuts hctl hA =>
      rw [forEachProcess_eq]
      dsimp only
      rcases visited_cases (checkTimeouts_idem s.krnl.uptime) p with h | ⟨hlinked, h⟩
      · rw [h]
        exact .same _
      · rw [h]
        exact .timeOuts _ hctl hlinked (hA p hlinked)
  | spawn y node isErrorHandler hrun hmode hnode hfirst hy hA =>
      by_cases hp : p = s.nextProc
      · subst hp
        rw [show (s.spawned y node isErrorHandler).proc s.nextProc = y from
          Function.update_self _ _ _]
        exact .spawn rfl hrun hmode hy hA
      · rw [show (s.spawned y node isErrorHandler).proc p = s.proc p from
          Function.update_of_ne hp _ _]
        exact .same _
  | freshLists k i hmode =>
      obtain ⟨lists, counts, heq⟩ := freshLists_eq s (listsOf k i)
      rw [heq]
      exact .same _
  | toNormal point hrun hmode hA =>
      rw [forEachProcess_eq]
      dsimp only
      rcases visited_startProcess s.processes s.krnl.uptime point s.proc p with h | ⟨hlinked, h⟩
      · rw [h]
        exact .same _
      · exact .toNormal hrun hmode hlinked h hA
  | _ => exact .same _

/-! ## Steps -/

theorem call_eq_some {service : Service} (hstep : s.step (.call service) = some s') :
    Running s ∧ s' = (s.exec service).1 := by
  unfold step stepOutcome at hstep
  dsimp only at hstep
  by_cases hrun : s.ctl = .process ∨ s.ctl = .mainProcess
  · rw [if_pos hrun] at hstep
    exact ⟨hrun, (Option.some.inj hstep).symm⟩
  · rw [if_neg hrun] at hstep
    cases hstep

theorem loop_eq_some (hstep : s.step .loop = some s') :
    s.ctl = .partitionOs ∧ s' = s.partitionOsLoop.1 := by
  unfold step stepOutcome at hstep
  dsimp only at hstep
  by_cases hctl : s.ctl = .partitionOs
  · rw [if_pos hctl] at hstep
    exact ⟨hctl, (Option.some.inj hstep).symm⟩
  · rw [if_neg hctl] at hstep
    cases hstep

/-- A turn of the loop in which a service returns is the end of that service. -/
theorem loop_returns {r : Result} (hreturn : s.stepOutcome .loop = some (s', some r)) :
    ∃ c, s.dispatched.processCurrent = some c
      ∧ { s.dispatched with ctl := .process }.resumeContext c.data = (s', some r) := by
  unfold stepOutcome at hreturn
  dsimp only at hreturn
  split at hreturn
  · rw [partitionOsLoop_eq] at hreturn
    split at hreturn
    · cases hreturn
    · split at hreturn
      · cases hreturn
      · next c hc =>
          split at hreturn
          · exact ⟨c, hc, Option.some.inj hreturn⟩
          · cases hreturn
  · cases hreturn

/-- A turn in which a service returns is not one that enters the partition's entry point. -/
theorem not_starting_of_returns {r : Result} (hreturn : s.stepOutcome .loop = some (s', some r)) :
    s.ctl = .partitionOs ∧ ¬ Starting s := by
  unfold stepOutcome at hreturn
  dsimp only at hreturn
  by_cases hctl : s.ctl = .partitionOs
  · rw [if_pos hctl, partitionOsLoop_eq] at hreturn
    refine ⟨hctl, fun hstarting => ?_⟩
    unfold Starting at hstarting
    rw [if_pos hstarting] at hreturn
    cases hreturn
  · rw [if_neg hctl] at hreturn
    cases hreturn

/-- A relation between the records before and after the tick and the scheduler of a turn. -/
theorem dispatched_rel {R : Process → Process → Prop} (hrefl : ∀ x, R x x)
    (htrans : ∀ x y z, R x y → R y z → R x z)
    (hrelease : ∀ uptime x, R x (checkAndReleasePeriodicWaitingProcesses uptime x))
    (htimeOuts : ∀ uptime x, R x (checkTimeouts uptime x))
    (hwake : ∀ k x, R x (wakeProcess k false x)) (hschedule : ∀ x y, Rescheduled x y → R x y)
    (s : Pcb) (p : Nat) : R (s.proc p) (s.dispatched.proc p) := by
  have hwoken : ∀ (t : Pcb) (q : WaitList), R (t.proc p) ((t.wokenFirst q).proc p) := by
    intro t q
    rcases wokenFirst_cases t q with ⟨-, h⟩ | ⟨p', h⟩
    · rw [h]
      exact hrefl _
    · rw [wakeFirst_proc h]
      split
      · next heq =>
          rw [heq]
          exact hwake _ _
      · exact hrefl _
  have hport : ∀ (t : Pcb) (index c : Nat), R (t.proc p) ((t.checkPort index c).proc p) := by
    intro t index c
    rw [checkPort_eq]
    split_ifs
    · exact htrans _ _ _ (hwoken t _) (hwoken _ _)
    · exact hwoken t _
    · exact hwoken t _
    · exact hrefl _
  have hports : ∀ (n index : Nat) (t : Pcb), R (t.proc p) ((checkPortsFrom index n t).proc p) := by
    intro n
    induction n with
    | zero => exact fun _ _ => hrefl _
    | succ n ih =>
        intro index t
        rw [checkPortsFrom]
        split
        · exact hrefl _
        · exact htrans _ _ _ (hport t index _) (ih _ _)
  have htick : R (s.proc p) (s.newTick.proc p) := by
    refine htrans _ _ _ ?_ (hports _ _ _)
    unfold arincTimeUpdatePartition
    rw [forEachProcess_eq, forEachProcess_eq]
    exact htrans _ _ _ (visited_rel hrefl htrans (hrelease _) _ _ p)
      (visited_rel hrefl htrans (htimeOuts _) _ _ p)
  have hscheduled : ∀ t : Pcb, R (t.proc p) (t.processSchedule.proc p) := by
    intro t
    obtain ⟨proc, current, heq, hproc, -⟩ := processSchedule_eq t
    rw [heq]
    exact hschedule _ _ (hproc p)
  unfold dispatched
  refine htrans _ _ _ ?_ (hscheduled _)
  split
  · exact htick
  · exact hrefl _

/-- A process resumes where it yielded. -/
theorem dispatched_context (s : Pcb) (p : Nat) :
    (s.dispatched.proc p).context = (s.proc p).context := by
  refine dispatched_rel (R := fun x y => y.context = x.context) (fun _ => rfl)
    (fun _ _ _ h h' => h'.trans h) (fun uptime x => ?_) (fun uptime x => ?_) (fun _ _ => rfl)
    (fun x y h => ?_) s p
  · unfold checkAndReleasePeriodicWaitingProcesses
    split_ifs <;> rfl
  · unfold checkTimeouts
    split_ifs <;> rfl
  · obtain ⟨st, rfl, -⟩ := h
    rfl

/-- A process resumes in code that ends a wait in a list where it has blocked in that list. -/
theorem Move.waitsIn (hm : Move A s s') {p : Nat} {k : Context} (hk : (s'.proc p).context = k)
    (hplain : resumesPlainly k = false) (hself : k ≠ .suspendSelf) :
    (s.proc p).context = k ∨ ∃ q timer, A.block s p q timer ∧ ResumesFrom q k := by
  have hchange := hm.change p
  generalize s.proc p = x at hchange ⊢
  generalize s'.proc p = y at hchange hk
  have hentry : k ≠ .entry := by
    rintro rfl
    cases hplain
  cases hchange with
  | touch h => exact Or.inl (h.context.symm.trans hk)
  | block q linked timer k' hcalls hkind hmutex hown hA hfrom =>
      obtain rfl : k' = k := hk
      exact Or.inr ⟨q, timer, hA, hfrom⟩
  | blockOnErrors error k' hcalls hown hA hfrom =>
      obtain rfl : k' = k := hk
      rw [hfrom]
      exact Or.inr ⟨.errorProcesses, none, hA, .raiseApplicationError error⟩
  | sleep k' timer hcalls hf hA hsleeps =>
      obtain rfl : k' = k := hf.context.symm.trans hk
      rcases hsleeps with rfl | rfl | rfl
      · exact absurd rfl hself
      · cases hplain
      · cases hplain
  | yield k' hcalls hown hplain' =>
      obtain rfl : k' = k := hk
      rw [hplain'] at hplain
      cases hplain
  | start delayed hlinked hstate hf hA => exact absurd (hk.symm.trans hf.context) hentry
  | readyHandler hp => exact absurd hk.symm hentry
  | initHandler hp => exact absurd hk.symm hentry
  | schedule hctl h hA =>
      obtain ⟨st, rfl, -⟩ := h
      exact Or.inl hk
  | release hctl hlinked hA =>
      refine Or.inl (Eq.trans ?_ hk)
      unfold checkAndReleasePeriodicWaitingProcesses
      split_ifs <;> rfl
  | timeOuts hctl hlinked hA =>
      refine Or.inl (Eq.trans ?_ hk)
      unfold checkTimeouts
      split_ifs <;> rfl
  | spawn hp hrun hmode hy hA => exact Or.inl (hy.context.symm.trans hk)
  | toNormal hrun hmode hlinked h hA =>
      obtain ⟨release, deadline, rfl⟩ := h
      exact Or.inl hk
  | _ => exact Or.inl hk

end Pcb

end UcxArinc
