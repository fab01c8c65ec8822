import UcxArinc.Proofs.TimeOuts

set_option autoImplicit false

/-! # Suspending and resuming

`RESUME` of a suspended process always cancels its time-out and readies it, whatever it was waiting for
when it was suspended; and since `SUSPEND_SELF` tells its two ends apart by that counter, it reports a
time-out whichever of them it was. -/

namespace UcxArinc

namespace Pcb

variable {s s' : Pcb} {p : Nat}

/-! ## What `RESUME` does -/

/-- The caller that yields keeps its record but for its context. -/
theorem yield_proc (s : Pcb) (c : Nat) (k : Context) (p : Nat) :
    ∃ k', (s.yieldToPartition c k).1.proc p = { s.proc p with context := k' } := by
  have hproc : (s.yieldToPartition c k).1.proc
      = Function.update s.proc c { s.proc c with context := k } := rfl
  rw [hproc]
  by_cases heq : p = c
  · rw [heq, Function.update_self]
    exact ⟨k, rfl⟩
  · rw [Function.update_of_ne heq]
    exact ⟨(s.proc p).context, rfl⟩

/-- `RESUME` keeps a record, but perhaps for its context, or readies the process and ends its suspension
    with its time-out. -/
theorem resume_record {processId : Int} (hstep : s.step (.call (.resume processId)) = some s') (p : Nat) :
    (∃ k, s'.proc p = { s.proc p with context := k })
      ∨ ∃ k, s'.proc p = { resumed (s.proc p) with context := k } := by
  have hsame : ∃ k, s.proc p = { s.proc p with context := k } := ⟨(s.proc p).context, rfl⟩
  -- the process found is resumed, and the caller yields
  have hresumed : ∀ (node c : Node), (∃ k, ((s.modProc node.data resumed).yieldToPartition c.data
      .resume).1.proc p = { s.proc p with context := k })
      ∨ ∃ k, ((s.modProc node.data resumed).yieldToPartition c.data .resume).1.proc p
        = { resumed (s.proc p) with context := k } := by
    intro node c
    obtain ⟨k, hk⟩ := yield_proc (s.modProc node.data resumed) c.data .resume p
    rw [hk]
    by_cases heq : p = node.data
    · subst heq
      rw [modProc_proc_self]
      exact Or.inr ⟨k, rfl⟩
    · rw [modProc_proc_of_ne heq]
      exact Or.inl ⟨k, rfl⟩
  obtain ⟨-, rfl⟩ := call_eq_some hstep
  unfold exec resume withCurrent withProcess
  dsimp only
  cases hcurrent : s.processCurrent with
  | none => exact Or.inl hsame
  | some c =>
      dsimp only
      cases hfound : s.isProcessIdExisted processId with
      | none => exact Or.inl hsame
      | some node =>
          dsimp only
          generalize hP : (fun o : Outcome => (∃ k, o.1.proc p = { s.proc p with context := k })
            ∨ ∃ k, o.1.proc p = { resumed (s.proc p) with context := k }) = P
          have hret : ∀ rc, P (s.ret rc) := fun rc => by
            rw [← hP]
            exact Or.inl hsame
          suffices h : P _ by
            rw [← hP] at h
            exact h
          refine refused_elim (hret _) fun hself => refused_elim (hret _) fun hdormant => ?_
          refine refused_elim (hret _) fun hperiod => refused_elim (hret _) fun hfaulted => ?_
          rw [← hP]
          cases hsuspended : (s.proc node.data).isSuspended with
          | true =>
              rw [if_pos rfl, if_pos (Or.inl (by rw [modProc_proc_self])), modProc_modProc,
                modProc_congr (g := resumed) (by simp [resumed, hsuspended])]
              exact hresumed node c
          | false =>
              rw [if_neg Bool.false_ne_true]
              split
              · rw [modProc_congr (g := resumed) (by simp [resumed, hsuspended])]
                exact hresumed node c
              · exact Or.inl hsame

/-! ## A wait that was suspended -/

/-- `RESUME` ends the suspension of process `p` and leaves it in its wait. -/
structure KeepsWait (p : Nat) (s s' : Pcb) : Prop where
  resumed : (s'.proc p).isSuspended = false
  waits : Waiting p s'
  lists : ∀ q, p ∈ s.waitingProcesses q → p ∈ s'.waitingProcesses q
  timer : (s'.proc p).timeCounter = (s.proc p).timeCounter

/-- Whatever a suspended process waits for, `RESUME` readies it without a time-out, or does not end the
    suspension. -/
theorem resume_never_keeps_wait {processId : Int} (hsuspended : (s.proc p).isSuspended = true)
    (hstep : s.step (.call (.resume processId)) = some s') :
    ¬ KeepsWait p s s' ∧ ((s'.proc p).isSuspended = false →
      (s'.proc p).processState = .ready ∧ (s'.proc p).timeCounter = 0) := by
  rcases resume_record hstep p with ⟨k, hk⟩ | ⟨k, hk⟩
  · have hstill : (s'.proc p).isSuspended = true := by
      rw [hk]
      exact hsuspended
    refine ⟨fun hkeeps => ?_, fun hended => ?_⟩
    · exact Bool.noConfusion (hstill.symm.trans hkeeps.resumed)
    · exact Bool.noConfusion (hstill.symm.trans hended)
  · refine ⟨fun hkeeps => ?_, fun _ => ?_⟩
    · have hwaits := hkeeps.waits
      rw [Waiting, hk] at hwaits
      cases hwaits
    · rw [hk]
      refine ⟨rfl, ?_⟩
      unfold Pcb.resumed
      dsimp only
      rw [if_pos hsuspended]

/-- Process 0 is suspended by process 1 while it waits for a semaphore of value 0. -/
def suspendedWaiter (timeOut : Int) : List Action :=
  waiterAndStopper timeOut ++ [.call (.suspend 1)]

theorem resume_never_keeps_wait_timed :
    ∃ s s', Transition.run step (defaultPartition 1) (suspendedWaiter 1000) = some s
      ∧ Waiting 0 s ∧ 0 ∈ s.waitingProcesses (.semaphore 0)
      ∧ s.step (.call (.resume 1)) = some s' ∧ ¬ KeepsWait 0 s s' := by
  have hbefore : (Transition.run step (defaultPartition 1) (suspendedWaiter 1000)).map
      (fun s => ((s.proc 0).isSuspended, (s.proc 0).processState, s.waitingProcesses (.semaphore 0),
        (s.step (.call (.resume 1))).isSome)) = some (true, .waiting, [0], true) := by decide
  obtain ⟨s, hs, hfields⟩ := Option.map_eq_some_iff.mp hbefore
  simp only [Prod.mk.injEq] at hfields
  obtain ⟨hsuspended, hwaits, hlist, hresumes⟩ := hfields
  obtain ⟨s', hs'⟩ := Option.isSome_iff_exists.mp hresumes
  refine ⟨s, s', hs, hwaits, ?_, hs', (resume_never_keeps_wait hsuspended hs').1⟩
  rw [hlist]
  exact List.mem_singleton_self 0

/-- A process that waits for a semaphore is suspended and resumed: it returns `NO_ERROR` although nobody has
    signalled, and is still in the list. -/
theorem resumed_waiter_returns :
    ∃ s s' s'' r, Transition.run step (defaultPartition 1) (suspendedWaiter infiniteTimeValue) = some s
      ∧ (s.proc 0).isSuspended = true ∧ Waiting 0 s
      ∧ s.step (.call (.resume 1)) = some s' ∧ ¬ KeepsWait 0 s s'
      ∧ s'.stepOutcome .loop = some (s'', some r) ∧ r.returnCode = .noError
      ∧ s''.waitingProcesses (.semaphore 0) = [0] := by
  have hrun : ((Transition.run step (defaultPartition 1)
      (suspendedWaiter infiniteTimeValue)).bind fun s => (s.step (.call (.resume 1))).bind fun s' =>
        (s'.stepOutcome .loop).map fun o => ((s.proc 0).isSuspended, (s.proc 0).processState,
          (s'.proc 0).processState, o.2.map Result.returnCode, o.1.waitingProcesses (.semaphore 0)))
      = some (true, .waiting, .ready, some .noError, [0]) := by decide
  obtain ⟨s, hs, hrest⟩ := Option.bind_eq_some_iff.mp hrun
  obtain ⟨s', hs', hrest⟩ := Option.bind_eq_some_iff.mp hrest
  obtain ⟨⟨s'', result⟩, hout, hfields⟩ := Option.map_eq_some_iff.mp hrest
  simp only [Prod.mk.injEq] at hfields
  obtain ⟨hsuspended, hwaits, hready, hcode, hlist⟩ := hfields
  obtain ⟨r, rfl, hr⟩ := Option.map_eq_some_iff.mp hcode
  refine ⟨s, s', s'', r, hs, hsuspended, hwaits, hs', fun hkeeps => ?_, hout, hr, hlist⟩
  have hstill := hkeeps.waits
  rw [Waiting, hready] at hstill
  cases hstill

/-! ## The return code of `SUSPEND_SELF` -/

/-- A time-out a service waits with is infinite or positive. -/
theorem timeOut_cases {timeOut : Int} (hinvalid : ¬ s.timeOutInvalid timeOut = true) (hzero : ¬ timeOut = 0) :
    timeOut = infiniteTimeValue ∨ 0 < timeOut := by
  unfold timeOutInvalid at hinvalid
  rw [infiniteTimeValue] at hinvalid ⊢
  simp only [Bool.or_eq_true, decide_eq_true_eq, not_or] at hinvalid
  omega

theorem fromNow_pos {timeOut : Int} (hfinite : timeOut = infiniteTimeValue ∨ 0 < timeOut)
    (hne : timeOut ≠ infiniteTimeValue) : 0 < s.fromNow timeOut := by
  unfold fromNow
  rcases hfinite with hinf | hpos
  · exact absurd hinf hne
  · omega

/-- Process `p` calls `SUSPEND_SELF` in `s`, and blocks. -/
structure SuspendsSelf (p : Nat) (timeOut : Int) (s s' : Pcb) : Prop where
  caller : ∃ c, s.processCurrent = some c ∧ c.data = p
  call : s.step (.call (.suspendSelf timeOut)) = some s'
  blocks : Waiting p s'

/-- The wait that begins in `s` is ended by its own time-out. -/
def EndedByTimeOut (p : Nat) (timeOut deadline : Int) (s : Pcb) (es : List Action) : Prop :=
  timeOut ≠ infiniteTimeValue
    ∧ ∃ u, Transition.Leaves step (Waiting p) s es u .loop ∧ Expires p deadline u

/-- The wait that begins in `s` is ended by `RESUME`. -/
def EndedByResume (p : Nat) (s : Pcb) (es : List Action) : Prop :=
  ∃ u processId, Transition.Leaves step (Waiting p) s es u (.call (.resume processId))

/-- The return code of a call of `SUSPEND_SELF` that blocked tells how it has ended. -/
structure ReportsSuspension (rc : ReturnCode) (timeOut : Int) (timedOut resumed : Prop) : Prop where
  timedOut : rc = .timedOut ↔ timedOut
  noError : rc = .noError ↔ resumed
  infinite : timeOut = infiniteTimeValue → rc ≠ .timedOut ∧ resumed

/-- The record of a process that has suspended itself. -/
theorem SuspendsSelf.record {timeOut : Int} (h : SuspendsSelf p timeOut s s') (hsound : Sound s) :
    (timeOut = infiniteTimeValue ∨ 0 < timeOut) ∧ s'.nextProc = s.nextProc
      ∧ s'.proc p = { s.proc p with
        processState := .waiting
        isSuspended := true
        timeCounter := if timeOut ≠ infiniteTimeValue then s.fromNow timeOut
          else (s.proc p).timeCounter
        context := .suspendSelf } := by
  obtain ⟨⟨c, hc, rfl⟩, hcall, hblocks⟩ := h
  obtain ⟨hrun, rfl⟩ := call_eq_some hcall
  have hnot : ¬ Waiting c.data s := (Calls.active hsound ⟨hrun, c, hc, rfl⟩).1
  unfold exec suspendSelf withCurrent at hblocks ⊢
  dsimp only at hblocks ⊢
  rw [hc] at hblocks ⊢
  dsimp only at hblocks ⊢
  by_cases hcannot : s.cannotBlock c.data = true
  · rw [if_pos hcannot] at hblocks
    exact absurd hblocks hnot
  rw [if_neg hcannot] at hblocks ⊢
  by_cases hinvalid : s.timeOutInvalid timeOut = true
  · rw [if_pos hinvalid] at hblocks
    exact absurd hblocks hnot
  rw [if_neg hinvalid] at hblocks ⊢
  by_cases hperiod : (s.proc c.data).attributes.period ≠ infiniteTimeValue
  · rw [if_pos hperiod] at hblocks
    exact absurd hblocks hnot
  rw [if_neg hperiod] at hblocks ⊢
  by_cases hzero : timeOut = 0
  · rw [if_pos hzero] at hblocks
    exact absurd hblocks hnot
  rw [if_neg hzero]
  refine ⟨timeOut_cases hinvalid hzero, rfl, ?_⟩
  unfold yieldToPartition toPartitionOs modProc
  dsimp only
  rw [Function.update_self, Function.update_self]

/-- A call of `SUSPEND_SELF` that blocked returns at the turn of the loop that dispatches its process: the
    code is decided by the counter. -/
theorem suspendSelf_returns {c : Node} {r : Result} (hcontext : (s.proc p).context = .suspendSelf)
    (hc : s.dispatched.processCurrent = some c) (hp : c.data = p)
    (hreturn : s.stepOutcome .loop = some (s', some r)) :
    s'.proc p = s.dispatched.proc p
      ∧ r.returnCode = if (s'.proc p).timeCounter = 0 then .timedOut else .noError := by
  obtain ⟨c', hc', hresume⟩ := loop_returns hreturn
  rw [hc] at hc'
  cases hc'
  unfold resumeContext at hresume
  rw [hp, dispatched_context, hcontext] at hresume
  dsimp only at hresume
  unfold finishWait at hresume
  by_cases hzero : (s.dispatched.proc p).timeCounter = 0
  · rw [if_pos ⟨rfl, hzero⟩] at hresume
    cases hresume
    exact ⟨rfl, (if_pos hzero).symm⟩
  · rw [if_neg fun hand => hzero hand.2] at hresume
    cases hresume
    exact ⟨rfl, (if_neg hzero).symm⟩

/-- After a wait that `RESUME` ended the counter is 0 until the process executes again. -/
theorem resumed_timerIsOff {timer : Int} {es : List Action} {u : Pcb} {processId : Int}
    (h : WaitsWith p timer true s) (hsound : Sound s)
    (hrun : Transition.GuardedRun step (NotBy p) s es s')
    (hends : Transition.Leaves step (Waiting p) s es u (.call (.resume processId))) :
    TimerIsOff p s' := by
  obtain ⟨es₁, es₂, u', hbefore, hin, -, hstep, hout, hafter⟩ := hends.split hrun
  obtain ⟨hsoundu, hu⟩ := h.run hsound hbefore
  have hnext : p < u'.nextProc := by
    have hmoves := step_moves hsoundu.running (permits_all u _) hstep
    exact (Moves.keep (I := fun t => p < t.nextProc) (fun _ _ _ h hm => h.trans_le hm.nextProc_le)
      hmoves hsoundu hu.allocated).2
  have hoff : TimerIsOff p u' := by
    refine ⟨hnext, ?_⟩
    rcases resume_record hstep p with ⟨k, hk⟩ | ⟨k, hk⟩
    · refine absurd ?_ hout
      rw [Waiting, hk]
      exact hin
    · rw [hk]
      unfold resumed
      dsimp only
      rw [if_pos ((hu.waits hin).2 rfl)]
  exact hoff.run (hsoundu.step hstep) hafter

/-- A call of `SUSPEND_SELF` that blocked reports its end truly exactly when its own time-out has ended it. -/
theorem suspendSelf_reports_iff (period identifier : Int) (conf : PartitionConf) (maxErrors : Nat)
    (krnl : Krnl) (memory : Nat → Process) (lastTick : Nat) {es₀ es : List Action}
    {s₀ s₁ s₂ s₃ : Pcb} {timeOut : Int} {c : Node} {r : Result}
    (hrun : Transition.run step
      (partitionInit period identifier conf maxErrors krnl memory lastTick).startPartitionOs es₀ = some s₀)
    (hcall : SuspendsSelf p timeOut s₀ s₁)
    (hwait : Transition.GuardedRun step (NotBy p) s₁ es s₂)
    (hcontext : (s₂.proc p).context = .suspendSelf)
    (hc : s₂.dispatched.processCurrent = some c) (hp : c.data = p)
    (hreturn : s₂.stepOutcome .loop = some (s₃, some r)) :
    ReportsSuspension r.returnCode timeOut
        (EndedByTimeOut p timeOut (s₀.fromNow timeOut) s₁ (es ++ [.loop]))
        (EndedByResume p s₁ (es ++ [.loop]))
      ↔ EndedByTimeOut p timeOut (s₀.fromNow timeOut) s₁ (es ++ [.loop]) := by
  obtain ⟨hsound, hqueues⟩ := queues_of_run period identifier conf maxErrors krnl memory lastTick hrun
  obtain ⟨hfinite, hnext, hrecord⟩ := hcall.record hsound
  have hsound₁ := hsound.step hcall.call
  have hwaits : WaitsWith p (s₁.proc p).timeCounter true s₁ := by
    refine ⟨?_, fun _ => ⟨rfl, fun _ => by rw [hrecord]⟩⟩
    obtain ⟨c', hc', hd⟩ := hcall.caller
    rw [hnext]
    exact hqueues.allocated p (Or.inr (Or.inl ⟨c', hc', hd⟩))
  -- the last turn of the loop is not one of the process either
  have hlast : s₂.step .loop = some s₃ := by
    unfold step
    rw [hreturn]
    rfl
  have hnotBy : NotBy p s₂ .loop := by
    refine ⟨fun hcalls => ?_, id⟩
    have hctl := (loop_eq_some hlast).1
    rcases hcalls.1 with hprocess | hmain
    · rw [hctl] at hprocess
      cases hprocess
    · rw [hctl] at hmain
      cases hmain
  have hall := hwait.snoc hnotBy hlast
  obtain ⟨-, hcode⟩ := suspendSelf_returns hcontext hc hp hreturn
  refine ⟨fun hreports => ?_, fun hended => ?_⟩
  · by_cases hzero : (s₃.proc p).timeCounter = 0
    · rw [if_pos hzero] at hcode
      exact hreports.timedOut.mp hcode
    · -- the call was ended by `RESUME`, and the counter would be 0
      rw [if_neg hzero] at hcode
      obtain ⟨u, processId, hends⟩ := hreports.noError.mp hcode
      exact absurd (resumed_timerIsOff hwaits hsound₁ hall hends).timer hzero
  · obtain ⟨hne, u, hends, hexpires⟩ := hended
    have hdeadline : (s₁.proc p).timeCounter = s₀.fromNow timeOut := by
      rw [hrecord]
      exact if_pos hne
    have hpositive := fromNow_pos (s := s₀) hfinite hne
    have hoff := expired_timerIsOff (hdeadline ▸ hwaits) hsound₁ hall hends hexpires hpositive
    rw [if_pos hoff.timer] at hcode
    refine ⟨iff_of_true hcode ⟨hne, u, hends, hexpires⟩, iff_of_false ?_ ?_, fun hinf => absurd hinf hne⟩
    · rw [hcode]
      exact ReturnCode.noConfusion
    · rintro ⟨u', processId, hresumed⟩
      exact nomatch (hends.unique hresumed).2

/-- The clock of the default kernel goes on. -/
def clockAt (uptime ticks : Nat) : Action :=
  .kernel uptime ticks 0 0 (fun _ => channelTemperature) fun _ => channelCmds

theorem suspendSelf_reports_timeOut :
    ∃ s₀ s₁ s₂ s₃ r, Transition.run step (defaultPartition 1) twoProcesses = some s₀
      ∧ SuspendsSelf 0 10 s₀ s₁ ∧ Transition.run step s₁ [clockAt 20 2] = some s₂
      ∧ s₂.stepOutcome .loop = some (s₃, some r)
      ∧ ReportsSuspension r.returnCode 10 (EndedByTimeOut 0 10 (s₀.fromNow 10) s₁ [clockAt 20 2, .loop])
        (EndedByResume 0 s₁ [clockAt 20 2, .loop]) := by
  have hrun : ((Transition.run step (defaultPartition 1) twoProcesses).bind fun s₀ =>
      (s₀.step (.call (.suspendSelf 10))).bind fun s₁ => (s₁.step (clockAt 20 2)).bind fun s₂ =>
        (s₂.stepOutcome .loop).map fun o => (s₀.processCurrent, s₁.ctl, (s₁.proc 0).processState,
          (s₂.proc 0).processState, o.2.isSome, (o.1.proc 0).processState))
      = some (some ⟨0, 0⟩, .partitionOs, .waiting, .waiting, true, .running) := by decide
  have hclock : ((Transition.run step (defaultPartition 1) twoProcesses).bind fun s₀ =>
      (s₀.step (.call (.suspendSelf 10))).bind fun s₁ => (s₁.step (clockAt 20 2)).map fun s₂ =>
        (s₀.krnl.uptime, s₂.krnl.uptime, s₂.krnl.ticks, s₂.lastTick)) = some (0, 20, 2, 0) := by decide
  have hcontext : ((Transition.run step (defaultPartition 1) twoProcesses).bind fun s₀ =>
      (s₀.step (.call (.suspendSelf 10))).bind fun s₁ => (s₁.step (clockAt 20 2)).map fun s₂ =>
        ((s₂.proc 0).context, s₂.processes, s₂.dispatched.processCurrent))
      = some (.suspendSelf, [⟨0, 0⟩, ⟨1, 1⟩], some ⟨0, 0⟩) := rfl
  obtain ⟨s₀, hs₀, hrun⟩ := Option.bind_eq_some_iff.mp hrun
  obtain ⟨s₁, hs₁, hrun⟩ := Option.bind_eq_some_iff.mp hrun
  obtain ⟨s₂, hs₂, hrun⟩ := Option.bind_eq_some_iff.mp hrun
  obtain ⟨⟨s₃, result⟩, hreturn, hfields⟩ := Option.map_eq_some_iff.mp hrun
  simp only [Prod.mk.injEq] at hfields
  obtain ⟨hcurrent, hctl, hblocked, hwaits, hsome, hready⟩ := hfields
  rw [hs₀, Option.bind_some, hs₁, Option.bind_some, hs₂, Option.map_some, Option.some.injEq] at hcontext hclock
  simp only [Prod.mk.injEq] at hclock hcontext
  obtain ⟨huptime₀, huptime, hticks, hlast⟩ := hclock
  obtain ⟨hcontext, hprocesses, hdispatched⟩ := hcontext
  obtain ⟨r, rfl⟩ := Option.isSome_iff_exists.mp hsome
  have hcall : SuspendsSelf 0 10 s₀ s₁ := ⟨⟨⟨0, 0⟩, hcurrent, rfl⟩, hs₁, hblocked⟩
  have hnotBy : NotBy 0 s₁ (clockAt 20 2) := by
    refine ⟨fun hcalls => ?_, id⟩
    rcases hcalls.1 with hprocess | hmain
    · rw [hctl] at hprocess
      cases hprocess
    · rw [hctl] at hmain
      cases hmain
  have hlastStep : s₂.step .loop = some s₃ := by
    unfold step
    rw [hreturn]
    rfl
  refine ⟨s₀, s₁, s₂, s₃, r, hs₀, hcall, by rw [Transition.run_cons, hs₂]; rfl, hreturn, ?_⟩
  have hwait : Transition.GuardedRun step (NotBy 0) s₁ [clockAt 20 2] s₂ := .cons hnotBy hs₂ (.nil s₂)
  refine (suspendSelf_reports_iff 50 1 defaultPartitionConf 10 defaultKrnl (fun _ => zeroProcess) 0
    hs₀ hcall hwait hcontext hdispatched rfl hreturn).mpr ?_
  refine ⟨by decide, s₂, .later hblocked hs₂ (.here hwaits hlastStep ?_), ⟨?_, ?_, ?_⟩⟩
  · intro hstill
    rw [Waiting, hready] at hstill
    cases hstill
  · rw [hticks, hlast]
    decide
  · rw [hprocesses]
    exact ⟨⟨0, 0⟩, List.mem_cons_self, rfl⟩
  · rw [huptime, fromNow, huptime₀]
    decide

/-- A process that suspends itself without a time-out and is resumed at once is told of a time-out. -/
theorem resumed_suspendSelf_times_out :
    ∃ s₀ s₁ s₂ s₃ s₄ r, Transition.run step (defaultPartition 1) twoProcesses = some s₀
      ∧ SuspendsSelf 0 infiniteTimeValue s₀ s₁ ∧ s₁.step .loop = some s₂
      ∧ s₂.step (.call (.resume 1)) = some s₃ ∧ s₃.stepOutcome .loop = some (s₄, some r)
      ∧ r.returnCode = .timedOut
      ∧ EndedByResume 0 s₁ [.loop, .call (.resume 1), .loop] := by
  have hrun : ((Transition.run step (defaultPartition 1) twoProcesses).bind fun s₀ =>
      (s₀.step (.call (.suspendSelf infiniteTimeValue))).bind fun s₁ => (s₁.step .loop).bind fun s₂ =>
        (s₂.step (.call (.resume 1))).bind fun s₃ => (s₃.stepOutcome .loop).map fun o =>
          (s₀.processCurrent, (s₁.proc 0).processState, (s₂.proc 0).processState,
            (s₃.proc 0).processState, o.2.map Result.returnCode))
      = some (some ⟨0, 0⟩, .waiting, .waiting, .ready, some .timedOut) := by decide
  obtain ⟨s₀, hs₀, hrun⟩ := Option.bind_eq_some_iff.mp hrun
  obtain ⟨s₁, hs₁, hrun⟩ := Option.bind_eq_some_iff.mp hrun
  obtain ⟨s₂, hs₂, hrun⟩ := Option.bind_eq_some_iff.mp hrun
  obtain ⟨s₃, hs₃, hrun⟩ := Option.bind_eq_some_iff.mp hrun
  obtain ⟨⟨s₄, result⟩, hreturn, hfields⟩ := Option.map_eq_some_iff.mp hrun
  simp only [Prod.mk.injEq] at hfields
  obtain ⟨hcurrent, hblocked, hwaits, hready, hcode⟩ := hfields
  obtain ⟨r, rfl, hr⟩ := Option.map_eq_some_iff.mp hcode
  refine ⟨s₀, s₁, s₂, s₃, s₄, r, hs₀, ⟨⟨⟨0, 0⟩, hcurrent, rfl⟩, hs₁, hblocked⟩, hs₂, hs₃, hreturn, hr, s₂, 1,
    .later hblocked hs₂ (.here hwaits hs₃ fun hstill => ?_)⟩
  rw [Waiting, hready] at hstill
  cases hstill

end Pcb

end UcxArinc
