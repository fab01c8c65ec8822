import UcxArinc.Proofs.Stopping

set_option autoImplicit false

/-! # The time-out of a wait

`time_counter` of a process that waits, and what becomes of it until the process executes again: it keeps
the value it had when the wait began as long as the process waits, and once it is 0 it stays 0. -/

namespace UcxArinc

namespace Pcb

variable {A : Permit} {s s' : Pcb} {p : Nat}

/-! ## While the process does not execute -/

/-- Process `p` neither blocks nor is started. -/
def besides (p : Nat) : Permit := { Permit.all with
  block := fun _ p' _ _ => p' ≠ p
  sleep := fun _ p' _ _ => p' ≠ p
  start := fun p' _ => p' ≠ p }

/-- Neither blocks nor is started, and is suspended only while it waits. -/
def besidesWaiting (p : Nat) : Permit := { besides p with
  suspend := fun s p' => p' = p → (s.proc p).processState = .waiting }

/-- The action is not one of process `p`, and does not start it. -/
def NotBy (p : Nat) (s : Pcb) (e : Action) : Prop := ¬ Calls s p ∧ ¬ StartsProcess s p e

/-- A service is called by the current process. -/
theorem NotBy.current {e : Action} (h : NotBy p s e) (hstep : s.step e = some s') {service : Service}
    (he : e = .call service) {c : Node} (hc : s.processCurrent = some c) : c.data ≠ p := by
  subst he
  rintro rfl
  exact h.1 ⟨(call_eq_some hstep).1, c, hc, rfl⟩

theorem NotBy.permits {e : Action} (h : NotBy p s e) (hstep : s.step e = some s') :
    Permits (besides p) s e := by
  refine MayAct.permits {
    block := fun _ he c hc _ _ _ _ _ => h.current hstep he hc
    sleep := fun _ he c hc _ _ _ _ => h.current hstep he hc
    suspendSelf := fun _ he _ c hc _ => h.current hstep he hc
    start := ?_
    delayedStart := ?_ }
  · rintro processId node rfl hnode - hd
    exact h.2 ⟨node, hnode, hd⟩
  · rintro processId delayTime node rfl hnode - hd
    exact h.2 ⟨node, hnode, hd⟩

theorem NotBy.permits_waiting {e : Action} (h : NotBy p s e) (hstep : s.step e = some s')
    (hwaits : (s.proc p).processState = .waiting) : Permits (besidesWaiting p) s e := by
  refine MayAct.permits {
    block := fun _ he c hc _ _ _ _ _ => h.current hstep he hc
    sleep := fun _ he c hc _ _ _ _ => h.current hstep he hc
    suspendSelf := fun _ he _ c hc _ => h.current hstep he hc
    suspend := fun _ _ _ _ _ _ _ _ => hwaits
    start := ?_
    delayedStart := ?_ }
  · rintro processId node rfl hnode - hd
    exact h.2 ⟨node, hnode, hd⟩
  · rintro processId delayTime node rfl hnode - hd
    exact h.2 ⟨node, hnode, hd⟩

/-! ## The counter while the process waits -/

/-- Whenever process `p` waits, its `time_counter` is `timer`, and it is suspended if it was. -/
structure WaitsWith (p : Nat) (timer : Int) (suspended : Bool) (s : Pcb) : Prop where
  allocated : p < s.nextProc
  waits : (s.proc p).processState = .waiting → (s.proc p).timeCounter = timer
    ∧ (suspended = true → (s.proc p).isSuspended = true)

theorem WaitsWith.move {timer : Int} {suspended : Bool} (h : WaitsWith p timer suspended s)
    (hsound : Sound s) (hm : Move (besidesWaiting p) s s') : WaitsWith p timer suspended s' := by
  refine ⟨h.allocated.trans_le hm.nextProc_le, ?_⟩
  have hchange := hm.change p
  have hactive : Calls s p → (s.proc p).processState ≠ .waiting := fun hcalls => (hcalls.active hsound).1
  have hwaits := h.waits
  generalize hx : s.proc p = x at hchange hwaits hactive
  generalize s'.proc p = y at hchange
  cases hchange with
  | same => exact hwaits
  | touch h =>
      rw [h.processState, h.timeCounter, h.isSuspended]
      exact hwaits
  | block q linked timer k hcalls hkind hmutex hown hA => exact absurd rfl hA
  | blockOnErrors error k hcalls hown hA => exact absurd rfl hA
  | sleep k timer hcalls hf hA => exact absurd rfl hA
  | yield k hcalls => exact hwaits
  | acquire index mutexId hcalls hidx hstate hfree => exact hwaits
  | takeBack index mutexId hidx hown hA => exact hwaits
  | suspend hlinked hother hmutex howns hstate hA =>
      have hwas : x.processState = .waiting := hx ▸ hA rfl
      exact fun _ => ⟨(hwaits hwas).1, fun _ => rfl⟩
  | setPriority priority hfree hmax => exact hwaits
  | start delayed hlinked hstate hf hA => exact absurd rfl hA
  | timerOff hcalls => exact fun hw => absurd hw (hactive hcalls)
  | initHandler hp => exact hwaits
  | schedule hctl h =>
      obtain ⟨st, rfl, hsame | ⟨-, hready | hrunning⟩⟩ := h
      · rw [hsame]
        exact hwaits
      · rw [hready]
        exact fun hw => (nomatch hw)
      · rw [hrunning]
        exact fun hw => (nomatch hw)
  | release hctl hlinked =>
      unfold checkAndReleasePeriodicWaitingProcesses
      split_ifs
      · exact fun hw => (nomatch hw)
      · exact fun hw => (nomatch hw)
      · exact hwaits
  | timeOuts hctl hlinked =>
      unfold checkTimeouts
      split_ifs
      · exact fun hw => (nomatch hw)
      · exact hwaits
  | spawn hp hrun hmode hy hA => exact absurd hp h.allocated.ne
  | toNormal hrun hmode hlinked h hA =>
      obtain ⟨release, deadline, rfl⟩ := h
      dsimp only
      split_ifs
      · exact fun hw => (nomatch hw)
      · exact hwaits
  | wake | grant | resume | stop | stopSelf | selfReady | fault | ignore | readyHandler =>
      exact fun hw => (nomatch hw)

/-! ## The counter once it is 0 -/

/-- The `time_counter` of process `p` is 0. -/
structure TimerIsOff (p : Nat) (s : Pcb) : Prop where
  allocated : p < s.nextProc
  timer : (s.proc p).timeCounter = 0

theorem TimerIsOff.move (h : TimerIsOff p s) (hm : Move (besides p) s s') : TimerIsOff p s' := by
  refine ⟨h.allocated.trans_le hm.nextProc_le, ?_⟩
  have hchange := hm.change p
  have hoff := h.timer
  generalize s.proc p = x at hchange hoff
  generalize s'.proc p = y at hchange
  cases hchange with
  | touch h => exact h.timeCounter.trans hoff
  | block q linked timer k hcalls hkind hmutex hown hA => exact absurd rfl hA
  | blockOnErrors error k hcalls hown hA => exact absurd rfl hA
  | sleep k timer hcalls hf hA => exact absurd rfl hA
  | wake q cancel rest hq hlist =>
      unfold wakeProcess
      dsimp only
      rw [if_neg fun hc => hc.2 hoff]
      exact hoff
  | grant index mutexId rest hidx hstate hlist =>
      unfold wakeProcess
      dsimp only
      rw [if_neg fun hc => hc.2 hoff]
      exact hoff
  | resume hlinked hstate hwas =>
      unfold resumed
      dsimp only
      split
      · rfl
      · exact hoff
  | start delayed hlinked hstate hf hA => exact absurd rfl hA
  | schedule hctl h =>
      obtain ⟨st, rfl, -⟩ := h
      exact hoff
  | release hctl hlinked =>
      unfold checkAndReleasePeriodicWaitingProcesses
      split_ifs <;> exact hoff
  | timeOuts hctl hlinked =>
      unfold checkTimeouts
      rw [if_neg fun hc => hc.1 hoff]
      exact hoff
  | spawn hp hrun hmode hy hA => exact absurd hp h.allocated.ne
  | toNormal hrun hmode hlinked h hA =>
      obtain ⟨release, deadline, rfl⟩ := h
      exact hoff
  | stop | stopSelf | timerOff => rfl
  | _ => exact hoff

/-! ## Expiry -/

/-- The turn of the loop in state `u` finds the time-out of process `p` expired at `deadline`. -/
structure Expires (p : Nat) (deadline : Int) (u : Pcb) : Prop where
  tick : u.krnl.ticks ≠ u.lastTick
  linked : ∃ n ∈ u.processes, n.data = p
  due : deadline ≤ u.krnl.uptime

/-- The two passes over the processes at a new tick. -/
def ticked (u : Pcb) : Pcb := ({ u with lastTick := u.krnl.ticks } : Pcb).arincTimeUpdatePartition

theorem ticked_eq (u : Pcb) : ∃ proc, u.ticked = { u with lastTick := u.krnl.ticks, proc := proc } := by
  unfold ticked arincTimeUpdatePartition
  rw [forEachProcess_eq, forEachProcess_eq]
  exact ⟨_, rfl⟩

theorem ticked_proc {u : Pcb} (h : ∃ n ∈ u.processes, n.data = p) : u.ticked.proc p
    = checkTimeouts u.krnl.uptime (checkAndReleasePeriodicWaitingProcesses u.krnl.uptime (u.proc p)) := by
  unfold ticked arincTimeUpdatePartition
  rw [forEachProcess_eq, forEachProcess_eq]
  dsimp only
  rw [visited_of_linked (checkTimeouts_idem _) h, visited_of_linked (checkAndRelease_idem _) h]

/-- The passes find the process expired: it is `READY`, and its counter is 0. -/
theorem Expires.ticked {deadline : Int} {u : Pcb} (h : Expires p deadline u)
    (htimer : (u.proc p).timeCounter = deadline) (hpositive : 0 < deadline) :
    (u.ticked.proc p).processState = .ready ∧ (u.ticked.proc p).timeCounter = 0 := by
  have hkeeps : (checkAndReleasePeriodicWaitingProcesses u.krnl.uptime (u.proc p)).timeCounter
      = deadline := by
    unfold checkAndReleasePeriodicWaitingProcesses
    split_ifs <;> exact htimer
  have hdue := h.due
  rw [ticked_proc h.linked]
  unfold checkTimeouts
  rw [if_pos]
  · exact ⟨rfl, rfl⟩
  · rw [hkeeps, infiniteTimeValue]
    omega

/-- After the passes of the tick the counter is off, and stays so whatever else the turn does. -/
theorem Expires.ticked_off {deadline : Int} {u : Pcb} (h : Expires p deadline u)
    (hallocated : p < u.nextProc) (htimer : (u.proc p).timeCounter = deadline) (hpositive : 0 < deadline)
    (hsound : Sound u) (hctl : u.ctl = .partitionOs) : Sound u.ticked ∧ TimerIsOff p u.ticked
      ∧ Moves (besides p) u.ticked (if u.krnl.ticks ≠ u.lastTick then u.newTick else u) := by
  obtain ⟨proc, hticked⟩ := ticked_eq u
  have htick : Frame u { u with lastTick := u.krnl.ticks } :=
    frame_counters u u.status.lockLevel u.errorListCb u.krnl.ticks _ _ _ _
  refine ⟨hsound.moves (A := .all) (.head (.frame htick)
    (clock_moves (s := { u with lastTick := u.krnl.ticks }) hctl (fun _ _ _ => trivial)
      fun _ _ _ => trivial).1), ⟨?_, ?_⟩, ?_⟩
  · rw [hticked]
    exact hallocated
  · exact (h.ticked htimer hpositive).2
  · rw [if_pos h.tick]
    exact (checkPorts_moves _ fun _ _ => trivial).1

theorem Expires.timerIsOff {deadline : Int} {u u' : Pcb} (h : Expires p deadline u)
    (hallocated : p < u.nextProc) (htimer : (u.proc p).timeCounter = deadline) (hpositive : 0 < deadline)
    (hsound : Sound u) (hnot : ¬ Starting u) (hstep : u.step .loop = some u') : TimerIsOff p u' := by
  obtain ⟨hctl, hloop⟩ := loop_eq_some hstep
  obtain ⟨hsounded, hoff, hmoves⟩ := h.ticked_off hallocated htimer hpositive hsound hctl
  rw [hloop]
  exact (Moves.keep (fun _ _ _ h hm => h.move hm) (afterTick_moves (A := besides p) hctl hnot trivial hmoves) hsounded
    hoff).2

theorem Expires.dispatched_off {deadline : Int} {u : Pcb} (h : Expires p deadline u)
    (hallocated : p < u.nextProc) (htimer : (u.proc p).timeCounter = deadline) (hpositive : 0 < deadline)
    (hsound : Sound u) (hnot : ¬ Starting u) (hctl : u.ctl = .partitionOs) :
    TimerIsOff p u.dispatched := by
  obtain ⟨hsounded, hoff, hmoves⟩ := h.ticked_off hallocated htimer hpositive hsound hctl
  exact (Moves.keep (fun _ _ _ h hm => h.move hm) (afterTick_dispatched (A := besides p) hctl hnot trivial hmoves) hsounded
    hoff).2

/-! ## From the start of a wait to its end -/

/-- Process `p` waits. -/
def Waiting (p : Nat) (s : Pcb) : Prop := (s.proc p).processState = .waiting

theorem WaitsWith.run {timer : Int} {suspended : Bool} {es : List Action}
    (h : WaitsWith p timer suspended s) (hsound : Sound s)
    (hrun : Transition.GuardedRun step (fun s e => NotBy p s e ∧ Waiting p s) s es s') :
    Sound s' ∧ WaitsWith p timer suspended s' :=
  keeps_of_moves (A := besidesWaiting p) hrun
    (fun _ _ _ _ _ hok hstep => hok.1.permits_waiting hstep hok.2) (fun _ _ hs h hm => h.move hs hm)
    hsound h

theorem TimerIsOff.run {es : List Action} (h : TimerIsOff p s) (hsound : Sound s)
    (hrun : Transition.GuardedRun step (NotBy p) s es s') : TimerIsOff p s' :=
  (keeps_of_moves (A := besides p) hrun (fun _ _ _ _ _ hok hstep => hok.permits hstep)
    (fun _ _ _ h hm => h.move hm) hsound h).2

/-- A turn of the loop that ends a wait is not one that enters the partition's entry point. -/
theorem not_starting_of_ends (hstep : s.step .loop = some s') (hin : Waiting p s)
    (hout : ¬ Waiting p s') : ¬ Starting s := by
  intro hs
  unfold Starting at hs
  obtain ⟨-, rfl⟩ := loop_eq_some hstep
  rw [partitionOsLoop_eq, if_pos hs] at hout
  exact hout hin

/-- A wait that its time-out ends leaves the counter at 0 until the process executes again. -/
theorem expired_timerIsOff {deadline : Int} {suspended : Bool} {es : List Action} {u : Pcb}
    (h : WaitsWith p deadline suspended s) (hsound : Sound s)
    (hrun : Transition.GuardedRun step (NotBy p) s es s')
    (hends : Transition.Leaves step (Waiting p) s es u .loop) (hexpires : Expires p deadline u)
    (hpositive : 0 < deadline) : TimerIsOff p s' := by
  obtain ⟨es₁, es₂, u', hbefore, hin, -, hstep, hout, hafter⟩ := hends.split hrun
  obtain ⟨hsoundu, hu⟩ := h.run hsound hbefore
  have hoff := hexpires.timerIsOff hu.allocated (hu.waits hin).1 hpositive hsoundu
    (not_starting_of_ends hstep hin hout) hstep
  exact hoff.run (hsoundu.step hstep) hafter

/-- A wait that its time-out ends, at the latest in the turn that dispatches the process: the counter is 0
    at the dispatch. -/
theorem expired_dispatched {deadline : Int} {suspended : Bool} {es : List Action} {u : Pcb}
    (h : WaitsWith p deadline suspended s) (hsound : Sound s)
    (hrun : Transition.GuardedRun step (NotBy p) s es s') (hctl : s'.ctl = .partitionOs)
    (hnot : ¬ Starting s') (hends : Transition.Leaves step (Waiting p) s (es ++ [.loop]) u .loop)
    (hexpires : Expires p deadline u) (hpositive : 0 < deadline) : TimerIsOff p s'.dispatched := by
  rcases hends.snoc_cases hrun with hbefore | ⟨rfl, -, hin, hguarded⟩
  · have hsound' := hrun.invariant (fun _ _ _ ht _ hstep => Sound.step ht hstep) hsound
    have hoff := expired_timerIsOff h hsound hrun hbefore hexpires hpositive
    exact (Moves.keep (fun _ _ _ h hm => h.move hm) (dispatched_moves (A := besides p) hctl hnot trivial
      fun _ => ⟨fun _ _ _ => trivial, fun _ _ _ => trivial, fun _ _ => trivial⟩).1 hsound' hoff).2
  · obtain ⟨hsoundu, hu⟩ := h.run hsound hguarded
    exact hexpires.dispatched_off hu.allocated (hu.waits hin).1 hpositive hsoundu hnot hctl

end Pcb

end UcxArinc
