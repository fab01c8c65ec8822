import UcxArinc.Proofs.WaitingQueues

set_option autoImplicit false

/-! # What `STOP` leaves behind

`STOP` takes a process out of the lists its back-pointers lead to, and nothing else. A process stopped
cleanly, because it owned no mutex and waited only where its back-pointers say, is `DORMANT`, in no list,
and stays so until it is started again; what the services forget to record stays in the lists. -/

namespace UcxArinc

namespace Pcb

variable {A : Permit} {s s' : Pcb} {p : Nat}

/-! ## Leaving the queues -/

/-- Once out of a list, always out of it while lists only shrink. -/
theorem Shrinks.not_mem (h : Shrinks s s') {q : WaitList} (hp : p ∉ s.waitingProcesses q) :
    p ∉ s'.waitingProcesses q := fun hin => hp ((h.1 q).subset hin)

theorem unlink_not_mem {q : WaitList} (hcount : (s.waitingProcesses q).count p ≤ 1) :
    p ∉ (s.unlink p q).waitingProcesses q := by
  unfold Pcb.unlink
  split
  · rw [addWaitingCount_eq]
    dsimp only
    rw [Function.update_self, ← List.count_eq_zero, List.count_erase_self]
    omega
  · next hmem => exact hmem

theorem foldl_unlink_not_mem {q : WaitList} {l : List WaitList} (hq : q ∈ l)
    (hcount : (s.waitingProcesses q).count p ≤ 1) :
    p ∉ (l.foldl (fun s q => s.unlink p q) s).waitingProcesses q := by
  induction l generalizing s with
  | nil => cases hq
  | cons q' l ih =>
      rw [List.foldl_cons]
      rcases List.mem_cons.mp hq with rfl | hin
      · exact (foldl_shrinks (fun s q => unlink_shrinks s p q) l _).not_mem (unlink_not_mem hcount)
      · exact ih hin ((((unlink_shrinks s p q').1 q).count_le p).trans hcount)

theorem foldl_unlink_proc (s : Pcb) (p : Nat) (l : List WaitList) :
    (l.foldl (fun s q => s.unlink p q) s).proc = s.proc := by
  induction l generalizing s with
  | nil => rfl
  | cons q l ih =>
      rw [List.foldl_cons, ih]
      unfold Pcb.unlink
      split
      · rw [addWaitingCount_eq]
      · rfl

/-- Leaving the queues of one kind does not touch the back-pointers of the others. -/
theorem leaveQueue_waiting {k k' : WaitKind} (h : k' ≠ k) :
    ((leaveQueue p s k).proc p).waiting k' = (s.proc p).waiting k' := by
  unfold leaveQueue
  split
  · rfl
  · rw [modProc_proc_self]
    dsimp only
    rw [Function.update_of_ne h, foldl_unlink_proc]

/-- A process leaves the list its back-pointer leads to. -/
theorem leaveQueue_not_mem {k : WaitKind} {q : WaitList} (hkind : q.kind = some k)
    (hpointer : (s.proc p).waiting k = some q.index) (hcount : (s.waitingProcesses q).count p ≤ 1) :
    p ∉ (leaveQueue p s k).waitingProcesses q := by
  unfold leaveQueue
  rw [hpointer]
  exact foldl_unlink_not_mem (mem_listsOf.mpr ⟨hkind, rfl⟩) hcount

theorem foldl_leaveQueue_not_mem {k : WaitKind} {q : WaitList} {ks : List WaitKind} (hk : k ∈ ks)
    (hkind : q.kind = some k) (hpointer : (s.proc p).waiting k = some q.index)
    (hcount : (s.waitingProcesses q).count p ≤ 1) :
    p ∉ (ks.foldl (leaveQueue p) s).waitingProcesses q := by
  induction ks generalizing s with
  | nil => cases hk
  | cons k' ks ih =>
      rw [List.foldl_cons]
      by_cases heq : k' = k
      · subst heq
        exact (foldl_shrinks (fun s k => leaveQueue_shrinks p s k) ks _).not_mem
          (leaveQueue_not_mem hkind hpointer hcount)
      · rcases List.mem_cons.mp hk with rfl | hin
        · exact absurd rfl heq
        · exact ih hin (by rw [leaveQueue_waiting (Ne.symm heq), hpointer])
            ((((leaveQueue_shrinks p s k').1 q).count_le p).trans hcount)

/-- Process `p` is queued at most where its back-pointers lead, and once. -/
def QueuedWherePointed (s : Pcb) (p : Nat) : Prop :=
  ∀ q, p ∈ s.waitingProcesses q →
    (∃ k, q.kind = some k ∧ (s.proc p).waiting k = some q.index) ∧ (s.waitingProcesses q).count p ≤ 1

theorem stopped_not_mem {q : WaitList} (h : p ∈ s.waitingProcesses q →
    (∃ k, q.kind = some k ∧ (s.proc p).waiting k = some q.index)
      ∧ (s.waitingProcesses q).count p ≤ 1) : p ∉ (s.stopped p).waitingProcesses q := by
  intro hin
  have hbefore := ((stopped_shrinks s p).1 q).subset hin
  obtain ⟨⟨k, hkind, hpointer⟩, hcount⟩ := h hbefore
  have hwaits : isProcessWaitingInWaitingQueue (s.proc p) = true := by
    unfold isProcessWaitingInWaitingQueue
    cases k <;> simp [hpointer]
  unfold stopped at hin
  rw [if_pos hwaits] at hin
  refine foldl_leaveQueue_not_mem ?_ hkind hpointer hcount hin
  cases k <;> decide

/-! ## A stopped process -/

/-- Process `p` is stopped, and nothing leads to it: it owns nothing, is in no list and is not current,
    and no other process goes by its identifier. -/
structure Stopped (p : Nat) (s : Pcb) : Prop where
  dormant : (s.proc p).processState = .dormant
  timer : (s.proc p).timeCounter = 0
  owns : (s.proc p).ownedMutexId = noMutexOwned
  lists : ∀ q, p ∉ s.waitingProcesses q
  notHandler : s.errorHandlerProcess ≠ some p
  notCurrent : ∀ c, s.processCurrent = some c → c.data ≠ p
  allocated : p < s.nextProc
  unique : (∃ n ∈ s.processes, n.data = p) → ¬ Starting s
    ∧ ∀ p', Live s p' → p' ≠ p → (s.proc p').processId ≠ (s.proc p).processId

/-- Everything is allowed but starting process `p`. -/
def unlessStarted (p : Nat) : Permit := { Permit.all with start := fun p' _ => p' ≠ p }

/-- The fields that make a process stopped, and its identifier. -/
def SameStop (x y : Process) : Prop :=
  y.processState = x.processState ∧ y.timeCounter = x.timeCounter ∧ y.ownedMutexId = x.ownedMutexId
    ∧ y.processId = x.processId

theorem SameStop.refl (x : Process) : SameStop x x := ⟨rfl, rfl, rfl, rfl⟩

/-- A move leaves the record of a stopped process alone. -/
theorem Stopped.sameStop (h : Stopped p s) (hm : Move (unlessStarted p) s s') :
    SameStop (s.proc p) (s'.proc p) := by
  have hcalls : ¬ Calls s p := by
    rintro ⟨-, c, hc, hd⟩
    exact h.notCurrent c hc hd
  have hlive : ∀ c, s.processCurrent = some c → Live s c.data := fun c hc =>
    Or.inr (Or.inl ⟨c, hc, rfl⟩)
  have hchange := hm.change p
  obtain ⟨hdormant, htimer, howns, hlists, hnotHandler, hnotCurrent, hallocated, hunique⟩ := h
  generalize s.proc p = x at hchange hdormant htimer howns hunique ⊢
  generalize s'.proc p = y at hchange ⊢
  cases hchange with
  | same => exact .refl _
  | touch h => exact ⟨h.processState, h.timeCounter, h.ownedMutexId, h.processId⟩
  | setPriority priority hfree hmax => exact ⟨rfl, rfl, rfl, rfl⟩
  | block q linked timer k hc hkind hmutex hA => exact absurd hc hcalls
  | blockOnErrors error k hc hA => exact absurd hc hcalls
  | sleep k timer hc hf hA => exact absurd hc hcalls
  | yield k hc => exact absurd hc hcalls
  | wake q cancel rest hq hlist => exact absurd (by rw [hlist]; exact List.mem_cons_self) (hlists q)
  | grant index mutexId rest hidx hstate hlist =>
      exact absurd (by rw [hlist]; exact List.mem_cons_self) (hlists (.mutex index))
  | acquire index mutexId hc hidx hstate hfree => exact absurd hc hcalls
  | takeBack index mutexId hidx hown hA => exact ⟨rfl, rfl, howns.symm, rfl⟩
  | suspend hlinked hother hmutex howns hstate hA => exact absurd hdormant hstate
  | resume hlinked hstate hwas => exact absurd hdormant hstate
  | stop waiting hlinked hother hA => exact ⟨hdormant.symm, htimer.symm, rfl, rfl⟩
  | stopSelf hc => exact absurd hc hcalls
  | start delayed hlinked hstate hf hA => exact absurd rfl hA
  | selfReady hc => exact absurd hc hcalls
  | timerOff hc => exact absurd hc hcalls
  | fault hc hA => exact absurd hc hcalls
  | ignore c hlinked hc hid hA =>
      exact absurd hid.symm ((hunique hlinked).2 c.data (hlive c hc) (hnotCurrent c hc))
  | readyHandler hp => exact absurd hp hnotHandler
  | initHandler hp => exact absurd hp hnotHandler
  | schedule hctl h =>
      obtain ⟨st, rfl, hsame | ⟨hready | hrunning, -⟩⟩ := h
      · exact ⟨hsame, rfl, rfl, rfl⟩
      · rw [hdormant] at hready
        cases hready
      · rw [hdormant] at hrunning
        cases hrunning
  | release hctl hlinked =>
      unfold checkAndReleasePeriodicWaitingProcesses
      rw [if_neg fun hc => by rw [hdormant] at hc; exact nomatch hc.1]
      exact .refl _
  | timeOuts hctl hlinked =>
      unfold checkTimeouts
      rw [if_neg fun hc => hc.1 htimer]
      exact .refl _
  | spawn hp hrun hmode hy hA => exact absurd hp hallocated.ne
  | toNormal hrun hmode hlinked h hA =>
      obtain ⟨release, deadline, rfl⟩ := h
      refine ⟨?_, rfl, rfl, rfl⟩
      dsimp only
      rw [if_neg fun hc => by rw [hdormant] at hc; exact nomatch hc.1]

/-- A stopped process stays so until it is started. -/
theorem Stopped.move (h : Stopped p s) (hsound : Sound s) (hm : Move (unlessStarted p) s s') :
    Stopped p s' := by
  obtain ⟨hstate, htimer, howns, hid⟩ := h.sameStop hm
  have hdormant := hstate.trans h.dormant
  -- the process is only linked, if it is there at all
  have hlinked : Live s' p → ∃ n ∈ s.processes, n.data = p := by
    intro hlive
    rcases hm.live hlive with (hin | ⟨c, hc, hd⟩ | ⟨q, hq⟩ | heh) | ⟨heq, -⟩
    · exact hin
    · exact absurd hd (h.notCurrent c hc)
    · exact absurd hq (h.lists q)
    · exact absurd heh h.notHandler
    · exact absurd heq h.allocated.ne
  refine ⟨hdormant, htimer.trans h.timer, howns.trans h.owns, fun q hq => ?_, fun hp => ?_,
    fun c hc hd => ?_, h.allocated.trans_le hm.nextProc_le, fun hin => ⟨fun hs => ?_, fun p' hp' hne => ?_⟩⟩
  · rcases hm.queues with hshrinks | ⟨p', q', ⟨-, c, hc, hd⟩, hjoins, -⟩
    · exact hshrinks.not_mem (h.lists q) hq
    · rcases hjoins.mem hq with hin | ⟨rfl, -⟩
      · exact h.lists q hin
      · exact h.notCurrent c hc hd
  · rcases hm.handler hp with hold | hnew
    · exact h.notHandler hold
    · exact h.allocated.ne hnew
  · rcases hm.current hc with ⟨c', hc', hd'⟩ | hrunning
    · exact h.notCurrent c' hc' (hd'.trans hd)
    · rw [hd, hdormant] at hrunning
      cases hrunning
  · rcases hm.starting hs with hbefore | hnone
    · exact (h.unique (hlinked (Or.inl hin))).1 hbefore
    · obtain ⟨n, hn, -⟩ := hin
      rw [hnone] at hn
      cases hn
  · obtain ⟨hstart, hunique⟩ := h.unique (hlinked (Or.inl hin))
    -- no process is created in `NORMAL` mode
    have hnormal : Running s → s.status.operatingMode = .normal := by
      rintro (hprocess | hmain)
      · exact (hsound.process hprocess).1
      · exact absurd (hsound.main hmain) hstart
    rcases hm.live hp' with hlive | ⟨-, -, hrun, hmode⟩
    · rcases hm.processId p' with hsame | ⟨-, hrun, hmode⟩
      · rw [hsame, hid]
        exact hunique p' hlive hne
      · exact absurd (hnormal hrun) hmode
    · exact absurd (hnormal hrun) hmode

/-! ## The condition -/

/-- A process calls `STOP` for another one that is not `DORMANT`: `processId` leads to `node`. -/
structure StopsOther (s : Pcb) (processId : Int) (node : Node) : Prop where
  runs : s.ctl = .process
  found : s.isProcessIdExisted processId = some node
  caller : ∃ c, s.processCurrent = some c ∧ (s.proc c.data).processId ≠ processId
  active : (s.proc node.data).processState ≠ .dormant

/-- Nothing is forgotten when `p` is stopped: it owns no mutex, it is queued where its back-pointers lead,
    it is not the error handler, and its identifier is its own. -/
structure Recorded (s : Pcb) (p : Nat) : Prop where
  owns : (s.proc p).ownedMutexId = noMutexOwned
  queued : QueuedWherePointed s p
  notHandler : s.errorHandlerProcess ≠ some p
  unique : ∀ p', Live s p' → p' ≠ p → (s.proc p').processId ≠ (s.proc p).processId

/-- A process whose waits are recorded, taken out of its queues by another one. -/
theorem Recorded.stopped {node c : Node} (h : Recorded s node.data) (hmem : node ∈ s.processes)
    (hc : s.processCurrent = some c)
    (hother : (s.proc node.data).processId ≠ (s.proc c.data).processId)
    (hmode : s.status.operatingMode = .normal) (hallocated : Allocated s) :
    Stopped node.data (s.stopped node.data) := by
  have hmove : Move .all s (s.stopped node.data) := by
    refine .stop s node hmem (fun c' hc' => ?_) trivial
    rw [hc] at hc'
    cases hc'
    exact hother
  have hlists := fun q => stopped_not_mem (h.queued q)
  have hids : ∀ p, ((s.stopped node.data).proc p).processId = (s.proc p).processId := fun p =>
    (hmove.processId p).resolve_right fun hnew => hnew.2.2 hmode
  have hlive : ∀ {p}, Live (s.stopped node.data) p → Live s p := fun hp =>
    (hmove.live hp).resolve_right fun hnew => hnew.2.2.2 hmode
  obtain ⟨w, l, counts, heq⟩ := stopped_eq s node.data
  have hproc : (s.stopped node.data).proc node.data = { makeDormant (s.proc node.data) with
      waiting := w
      deadlineTime := infiniteTimeValue } := by
    rw [heq]
    exact Function.update_self _ _ _
  refine ⟨by rw [hproc]; rfl, by rw [hproc]; rfl, by rw [hproc]; exact h.owns, hlists, ?_,
    fun c' hc' hd => ?_, ?_, fun _ => ⟨fun hs => ?_, fun p hp hne => ?_⟩⟩
  · rw [heq]
    exact h.notHandler
  · rw [(stopped_caller s node.data).1, hc] at hc'
    cases hc'
    exact hother (by rw [hd])
  · rw [heq]
    exact hallocated _ (Or.inl ⟨node, hmem, rfl⟩)
  · rw [Starting, heq] at hs
    dsimp only at hs
    rw [hmode] at hs
    rcases hs with hcold | hwarm <;> contradiction
  · rw [hids p, hids node.data]
    exact h.unique p (hlive hp) hne

theorem StopsOther.stopped {processId : Int} {node : Node} (h : StopsOther s processId node)
    (hrecorded : Recorded s node.data) (hsound : Sound s) (hallocated : Allocated s)
    (hstep : s.step (.call (.stop processId)) = some s') : Stopped node.data s' := by
  obtain ⟨hmem, hid⟩ := isProcessIdExisted_eq_some h.found
  obtain ⟨c, hc, hother⟩ := h.caller
  have hdiff : (s.proc node.data).processId ≠ (s.proc c.data).processId := by
    rw [hid]
    exact Ne.symm hother
  have heq : s' = ((s.stopped node.data).yieldToPartition c.data .stop).1 := by
    obtain ⟨-, rfl⟩ := call_eq_some hstep
    unfold exec stop withCurrent withProcess
    dsimp only
    rw [hc, h.found]
    dsimp only
    rw [if_neg hdiff, if_neg h.active]
    rfl
  have hmoves := hsound.stop fun c' hc' => by
    rw [hc] at hc'
    cases hc'
    exact hdiff
  have hstopped := hrecorded.stopped hmem hc hdiff (hsound.process h.runs).1 hallocated
  obtain ⟨hcurrent, hctl⟩ := stopped_caller s node.data
  rw [heq]
  refine hstopped.move hmoves (.yield _ c.data .stop ⟨Or.inl ?_, c, ?_, rfl⟩ rfl)
  · rw [hctl, h.runs]
  · rw [hcurrent, hc]

/-! ## Runs -/

/-- The action starts process `p`. -/
def StartsProcess (s : Pcb) (p : Nat) : Action → Prop
  | .call (.start processId) | .call (.delayedStart processId _) =>
    ∃ node, s.isProcessIdExisted processId = some node ∧ node.data = p
  | _ => False

theorem permits_unlessStarted {e : Action} (h : ¬ StartsProcess s p e) :
    Permits (unlessStarted p) s e := by
  refine MayAct.permits { start := ?_, delayedStart := ?_ }
  · rintro processId node rfl hnode - hd
    exact h ⟨node, hnode, hd⟩
  · rintro processId delayTime node rfl hnode - hd
    exact h ⟨node, hnode, hd⟩

/-- A process that another one stops while its waits are recorded is, in every state reached until it is
    started again, `DORMANT`, in no list, counted in none, and owns no mutex. -/
theorem stopped_leaves_no_trace (period identifier : Int) (conf : PartitionConf) (maxErrors : Nat)
    (krnl : Krnl) (memory : Nat → Process) (lastTick : Nat) {es es' : List Action}
    {s s₁ s₂ : Pcb} {processId : Int} {node : Node}
    (hrun : Transition.run step
      (partitionInit period identifier conf maxErrors krnl memory lastTick).startPartitionOs es = some s)
    (hstops : StopsOther s processId node) (hrecorded : Recorded s node.data)
    (hstep : s.step (.call (.stop processId)) = some s₁)
    (hafter : Transition.GuardedRun step (fun s e => ¬ StartsProcess s node.data e) s₁ es' s₂) :
    (s₂.proc node.data).processState = .dormant
      ∧ (∀ q, node.data ∉ s₂.waitingProcesses q)
      ∧ (∀ k i, s₂.waitingCount (k, i) = waitersIn s₂.waitingProcesses k i)
      ∧ (s₂.proc node.data).ownedMutexId = noMutexOwned := by
  obtain ⟨hsound, hqueues⟩ := queues_of_run period identifier conf maxErrors krnl memory lastTick hrun
  have hstopped := hstops.stopped hrecorded hsound hqueues.allocated hstep
  obtain ⟨hsound₁, hqueues₁⟩ := Moves.keep (fun _ _ _ hq hm => hq.move hm)
    (step_moves hsound.running (permits_all s _) hstep) hsound hqueues
  obtain ⟨-, hqueues₂, hstopped₂⟩ := keeps_of_moves (A := unlessStarted node.data)
    (I := fun s => Queues s ∧ Stopped node.data s) hafter
    (fun _ _ _ _ _ he _ => permits_unlessStarted he)
    (fun _ _ hs h hm => ⟨h.1.move hm, h.2.move hs hm⟩) hsound₁ ⟨hqueues₁, hstopped⟩
  exact ⟨hstopped₂.dormant, hstopped₂.lists, hqueues₂.counted, hstopped₂.owns⟩

/-- Process 0 waits for a semaphore of value 0 with the given time-out, and process 1 executes. -/
def waiterAndStopper (timeOut : Int) : List Action :=
  [.loop, .call (.createProcess (aperiodicProcess "A".toList 50)),
    .call (.createProcess (aperiodicProcess "B".toList 40)),
    .call (.createSemaphore "S".toList 0 5 0), .call (.start 1), .call (.start 2),
    .call (.setPartitionMode 3), .loop, .call (.waitSemaphore 1 timeOut), .loop]

theorem stopped_leaves_no_trace_timed :
    ∃ s s₁ s₂, Transition.run step (defaultPartition 1) (waiterAndStopper 1000) = some s
      ∧ 0 ∈ s.waitingProcesses (.semaphore 0) ∧ s.step (.call (.stop 1)) = some s₁
      ∧ Transition.run step s₁ [.loop, .call (.signalSemaphore 1)] = some s₂
      ∧ (s₂.proc 0).processState = .dormant ∧ 0 ∉ s₂.waitingProcesses (.semaphore 0) := by
  have hbefore : (Transition.run step (defaultPartition 1) (waiterAndStopper 1000)).map
      (fun s => (s.ctl, s.isProcessIdExisted 1, s.processCurrent, s.processes))
      = some (.process, some ⟨0, 0⟩, some ⟨1, 1⟩, [⟨0, 0⟩, ⟨1, 1⟩]) := by decide
  have hproc : (Transition.run step (defaultPartition 1) (waiterAndStopper 1000)).map
      (fun s => ((s.proc 0).processState, (s.proc 0).waiting .semaphore, (s.proc 0).ownedMutexId,
        (s.proc 0).processId, (s.proc 1).processId, s.errorHandlerProcess))
      = some (.waiting, some 0, noMutexOwned, 1, 2, none) := by decide
  have hlists : (Transition.run step (defaultPartition 1) (waiterAndStopper 1000)).map
      (fun s => s.waitingProcesses)
      = some (Function.update (Function.update (Function.update (fun _ => []) (.mutex 0) [])
        (.semaphore 0) []) (.semaphore 0) [0]) := rfl
  have hafter : ((Transition.run step (defaultPartition 1) (waiterAndStopper 1000)).bind fun s =>
      (s.step (.call (.stop 1))).bind fun s₁ =>
        (Transition.run step s₁ [.loop, .call (.signalSemaphore 1)])).isSome := by decide
  obtain ⟨s, hs, hfields⟩ := Option.map_eq_some_iff.mp hbefore
  rw [hs] at hproc hlists hafter
  simp only [Option.map_some, Option.some.injEq, Prod.mk.injEq, Option.bind_some]
    at hfields hproc hlists hafter
  obtain ⟨hctl, hfound, hcurrent, hprocesses⟩ := hfields
  obtain ⟨hstate, hpointer, howns, hid, hid', hhandler⟩ := hproc
  obtain ⟨s₂, hs₂⟩ := Option.isSome_iff_exists.mp hafter
  obtain ⟨s₁, hstep, hrun⟩ := Option.bind_eq_some_iff.mp hs₂
  have hmem : ∀ {q p}, p ∈ s.waitingProcesses q → q = .semaphore 0 ∧ p = 0 := by
    intro q p hp
    rw [hlists] at hp
    by_cases hq : q = .semaphore 0
    · rw [hq, Function.update_self, List.mem_singleton] at hp
      exact ⟨hq, hp⟩
    · rw [Function.update_of_ne hq, Function.update_of_ne hq, Function.update_apply] at hp
      split at hp <;> cases hp
  have hqueue : s.waitingProcesses (.semaphore 0) = [0] := by
    rw [hlists]
    exact Function.update_self _ _ _
  have hstops : StopsOther s 1 ⟨0, 0⟩ :=
    ⟨hctl, hfound, ⟨⟨1, 1⟩, hcurrent, by rw [hid']; decide⟩, by rw [hstate]; exact ProcessState.noConfusion⟩
  have hrecorded : Recorded s 0 := by
    refine ⟨howns, fun q hq => ?_, by rw [hhandler]; exact fun hc => (nomatch hc), fun p hp hne => ?_⟩
    · obtain ⟨rfl, -⟩ := hmem hq
      exact ⟨⟨.semaphore, rfl, hpointer⟩, by rw [hqueue]; decide⟩
    · have hp1 : p = 1 := by
        rcases hp with ⟨n, hn, rfl⟩ | ⟨c, hc, rfl⟩ | ⟨q, hq⟩ | heh
        · rw [hprocesses] at hn
          rcases List.mem_cons.mp hn with rfl | hn
          · exact absurd rfl hne
          · rw [List.mem_singleton.mp hn]
        · rw [hcurrent] at hc
          cases hc
          rfl
        · exact absurd (hmem hq).2 hne
        · rw [hhandler] at heh
          cases heh
      rw [hp1, hid, hid']
      decide
  obtain ⟨hdormant, hno, -⟩ := stopped_leaves_no_trace 50 1 defaultPartitionConf 10 defaultKrnl
    (fun _ => zeroProcess) 0 hs hstops hrecorded hstep
    ((Transition.GuardedRun.of_run (P := fun e => ∀ t, ¬ StartsProcess t 0 e) hrun (by
      simp [StartsProcess])).mono fun t e h => h t)
  exact ⟨s, s₁, s₂, hs, by rw [hqueue]; exact List.mem_singleton_self 0, hstep, hrun, hdormant, hno _⟩

/-- A process that waits without a time-out stays in the list of its semaphore when it is stopped, and the
    next signal makes it `READY`. -/
theorem stopped_waiter_is_signalled :
    ∃ s s₁ s₂, Transition.run step (defaultPartition 1) (waiterAndStopper infiniteTimeValue) = some s
      ∧ StopsOther s 1 ⟨0, 0⟩ ∧ s.step (.call (.stop 1)) = some s₁
      ∧ (s₁.proc 0).processState = .dormant ∧ 0 ∈ s₁.waitingProcesses (.semaphore 0)
      ∧ Transition.GuardedRun step (fun s e => ¬ StartsProcess s 0 e) s₁
        [.loop, .call (.signalSemaphore 1)] s₂
      ∧ (s₂.proc 0).processState = .ready := by
  have hbefore : (Transition.run step (defaultPartition 1) (waiterAndStopper infiniteTimeValue)).map
      (fun s => (s.ctl, s.isProcessIdExisted 1, s.processCurrent, (s.proc 1).processId,
        (s.proc 0).processState))
      = some (.process, some ⟨0, 0⟩, some ⟨1, 1⟩, 2, .waiting) := by decide
  have hafter : ((Transition.run step (defaultPartition 1)
      (waiterAndStopper infiniteTimeValue)).bind fun s => (s.step (.call (.stop 1))).bind fun s₁ =>
        (Transition.run step s₁ [.loop, .call (.signalSemaphore 1)]).map fun s₂ =>
          ((s₁.proc 0).processState, s₁.waitingProcesses (.semaphore 0), (s₂.proc 0).processState))
      = some (.dormant, [0], .ready) := by decide
  obtain ⟨s, hs, hfields⟩ := Option.map_eq_some_iff.mp hbefore
  rw [hs, Option.bind_some] at hafter
  obtain ⟨s₁, hstep, hrest⟩ := Option.bind_eq_some_iff.mp hafter
  obtain ⟨s₂, hrun, hstates⟩ := Option.map_eq_some_iff.mp hrest
  simp only [Prod.mk.injEq] at hfields hstates
  obtain ⟨hctl, hfound, hcurrent, hid, hstate⟩ := hfields
  obtain ⟨hdormant, hlist, hready⟩ := hstates
  refine ⟨s, s₁, s₂, hs, ⟨hctl, hfound, ⟨⟨1, 1⟩, hcurrent, by rw [hid]; decide⟩, ?_⟩, hstep, hdormant, ?_,
    ?_, hready⟩
  · rw [hstate]
    exact ProcessState.noConfusion
  · rw [hlist]
    exact List.mem_singleton_self 0
  · exact (Transition.GuardedRun.of_run (P := fun e => ∀ t, ¬ StartsProcess t 0 e) hrun (by
      simp [StartsProcess])).mono fun t e h => h t

end Pcb

end UcxArinc
