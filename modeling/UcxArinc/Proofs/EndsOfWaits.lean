import UcxArinc.Proofs.EventWaits
import UcxArinc.Proofs.ModuleRuns

set_option autoImplicit false

/-! # How a wait ends

An aperiodic process that waits goes on waiting, whatever the others do, until it is woken, until a service
names it, until an error is reported under its identifier, or until its time-out has come. In particular
neither the release of periodic and delayed processes nor the end of another wait readies it, and a service
that made it wait reports a time-out unless it has been woken. -/

namespace UcxArinc

namespace Pcb

variable {b s s' : Pcb} {p : Nat} {x : Process}

/-! ## Steps that leave a waiting process alone -/

/-- The time-out of the record has come. -/
def TimeUp (x : Process) (s : Pcb) : Prop := Due s.krnl.uptime x

/-- The step wakes process `p` from no list, names it in no `STOP`, `SUSPEND` or `RESUME`, reports no error
    under its identifier, and sets no operating mode. -/
def Spares (p : Nat) (s : Pcb) : Action → Prop
  | .call (.suspend processId) | .call (.resume processId) | .call (.stop processId) =>
    ∀ node, s.isProcessIdExisted processId = some node → node.data ≠ p
  | .call (.raiseApplicationError _ _ _) | .fault _ _ _ => ∀ c, s.processCurrent = some c →
    ∀ node ∈ s.processes, (s.proc node.data).processId = (s.proc c.data).processId → node.data ≠ p
  | .call (.setPartitionMode _) => False
  | .call service => ¬ Wakes s service p
  | .loop => ¬ Starting s → s.krnl.ticks ≠ s.lastTick → ¬ s.WokenAtPort p
  | .mainReturn | .kernel _ _ _ _ _ _ => True

/-- Everything but to ready or suspend process `p`, which may time out if the time-out of `x` has come in state
    `b`. -/
def unwakening (p : Nat) (x : Process) (b : Pcb) : Permit := { Permit.all with
  wake := fun p' => p' ≠ p
  grant := fun p' => p' ≠ p
  suspend := fun _ p' => p' ≠ p
  resume := fun _ p' => p' ≠ p
  stop := fun _ p' => p' ≠ p
  expire := fun _ p' => p' = p → TimeUp x b
  ignore := fun _ p' => p' ≠ p
  dispatch := False
  mode := fun _ => False }

/-- Process `p` of a partition that operates has not been woken since its record was `x`: it waits as it did, or
    its time-out, which had come in state `b`, has readied it. It is aperiodic, its start is not delayed, and
    it does not execute. -/
structure Unwoken (p : Nat) (x : Process) (b s : Pcb) : Prop where
  allocated : p < s.nextProc
  normal : s.status.operatingMode = .normal
  notHandler : s.errorHandlerProcess ≠ some p
  idle : ¬ Calls s p
  context : (s.proc p).context = x.context
  aperiodic : (s.proc p).attributes.period = infiniteTimeValue
  undelayed : (s.proc p).savedInitDelay = 0
  rests : (s.proc p).processState = .waiting ∧ (s.proc p).timeCounter = x.timeCounter
    ∨ (s.proc p).processState = .ready ∧ (s.proc p).timeCounter = 0 ∧ TimeUp x b

theorem Unwoken.not_running (h : Unwoken p x b s) : (s.proc p).processState ≠ .running := by
  intro hr
  rcases h.rests with ⟨h, -⟩ | ⟨h, -⟩ <;> rw [hr] at h <;> cases h

theorem Unwoken.not_released {uptime : Nat} (h : Unwoken p x b s) : ¬ ReleaseDue uptime (s.proc p) := by
  rintro ⟨-, hperiodic | ⟨hdelayed, -⟩, -⟩
  · exact hperiodic h.aperiodic
  · exact hdelayed h.undelayed

/-- Its time-out can only come when the one of `x` does. -/
theorem Unwoken.timeUp (h : Unwoken p x b s) (hdue : Due s.krnl.uptime (s.proc p)) : TimeUp x s := by
  obtain ⟨harmed, hpast, hfinite⟩ := hdue
  rcases h.rests with ⟨-, htimer⟩ | ⟨-, hzero, -⟩
  · rw [htimer] at harmed hpast hfinite
    exact ⟨harmed, hpast, hfinite⟩
  · exact absurd hzero harmed

/-- The release leaves the process as it is. -/
theorem Unwoken.released (h : Unwoken p x b s) :
    s.released.proc p = s.proc p ∧ s.released.krnl.uptime = s.krnl.uptime := by
  unfold Pcb.released
  rw [forEachProcess_eq]
  refine ⟨?_, rfl⟩
  have hstays := visited_rel (R := fun y z => ¬ ReleaseDue s.krnl.uptime y → z = y)
    (f := checkAndReleasePeriodicWaitingProcesses s.krnl.uptime) (fun _ _ => rfl)
    (fun y z w hyz hzw hnot => ?_) (fun y hnot => if_neg hnot) s.processes s.proc p
  · exact hstays h.not_released
  · obtain rfl := hyz hnot
    exact hzw hnot

/-! ## Moves -/

/-- What is permitted then leaves the process unwoken. -/
theorem Unwoken.move (h : Unwoken p x b s) (hm : Move (unwakening p x b) s s') : Unwoken p x b s' := by
  have hidle := h.idle
  have hrecord : (s'.proc p).context = (s.proc p).context
      ∧ (s'.proc p).attributes.period = (s.proc p).attributes.period
      ∧ (s'.proc p).savedInitDelay = (s.proc p).savedInitDelay
      ∧ ((s'.proc p).processState = .waiting ∧ (s'.proc p).timeCounter = x.timeCounter
        ∨ (s'.proc p).processState = .ready ∧ (s'.proc p).timeCounter = 0 ∧ TimeUp x b) := by
    have hchange := hm.change p
    have hrests := h.rests
    have hreleased : ¬ ReleaseDue s.krnl.uptime (s.proc p) := h.not_released
    generalize s.proc p = y at hchange hrests hreleased ⊢
    generalize s'.proc p = z at hchange ⊢
    cases hchange with
    | same => exact ⟨rfl, rfl, rfl, hrests⟩
    | touch ht =>
        refine ⟨ht.context, by rw [ht.attributes], ht.savedInitDelay, ?_⟩
        rw [ht.processState, ht.timeCounter]
        exact hrests
    | setPriority priority hfree hmax hA => exact ⟨rfl, rfl, rfl, hrests⟩
    | block q linked timer k hcalls => exact absurd hcalls hidle
    | blockOnErrors error k hcalls => exact absurd hcalls hidle
    | sleep k timer hcalls => exact absurd hcalls hidle
    | yield k hcalls => exact absurd hcalls hidle
    | wake q cancel rest hq hlist hA => exact absurd rfl hA
    | grant index mutexId rest hidx hstate hlist hA => exact absurd rfl hA
    | acquire index mutexId hcalls => exact absurd hcalls hidle
    | takeBack index mutexId hidx hown hA => exact ⟨rfl, rfl, rfl, hrests⟩
    | suspend hlinked hother hmutex howns hstate hA => exact absurd rfl hA
    | resume hlinked hstate hwas hA => exact absurd rfl hA
    | stop waiting hlinked hother hA => exact absurd rfl hA
    | stopSelf hcalls => exact absurd hcalls hidle
    | start delayed hlinked hstate hf hA =>
        rcases hrests with ⟨hr, -⟩ | ⟨hr, -⟩ <;> rw [hstate] at hr <;> cases hr
    | selfReady hcalls => exact absurd hcalls hidle
    | timerOff hcalls => exact absurd hcalls hidle
    | fault hcalls => exact absurd hcalls hidle
    | ignore c hlinked hc hid hA => exact absurd rfl hA
    | readyHandler hp => exact absurd hp h.notHandler
    | initHandler hp => exact absurd hp h.notHandler
    | schedule hctl hr hA => exact hA.elim
    | release hctl hlinked hA =>
        rw [show checkAndReleasePeriodicWaitingProcesses s.krnl.uptime y = y from if_neg hreleased]
        exact ⟨rfl, rfl, rfl, hrests⟩
    | timeOuts hctl hlinked hA =>
        by_cases hdue : Due s.krnl.uptime y
        · rw [checkTimeouts_of_due hdue]
          exact ⟨rfl, rfl, rfl, Or.inr ⟨rfl, rfl, hA hdue rfl⟩⟩
        · rw [show checkTimeouts s.krnl.uptime y = y from if_neg hdue]
          exact ⟨rfl, rfl, rfl, hrests⟩
    | spawn hp hrun hmode hy hA => exact absurd h.normal hmode
    | toNormal hrun hmode hlinked hstarted hA => exact hA.elim
  obtain ⟨hcontext, hperiod, hdelay, hrests⟩ := hrecord
  have hidle' : ¬ Calls s' p := by
    rintro ⟨hrun', c, hc, hd⟩
    rcases hm.current hc with ⟨c', hc', hd'⟩ | hrunning
    · rcases hm.control with hctl | hctl | hctl | ⟨node, -, hnode, hrunning⟩ | ⟨hstarting, -⟩
      · exact hidle ⟨hrun'.congr hctl.symm, c', hc', hd'.trans hd⟩
      · rcases hrun' with h | h <;> rw [hctl] at h <;> cases h
      · rcases hrun' with h | h <;> rw [hctl] at h <;> cases h
      · rw [hc'] at hnode
        cases hnode
        rw [hd', hd] at hrunning
        exact h.not_running hrunning
      · rw [Starting, h.normal] at hstarting
        rcases hstarting with hs | hs <;> cases hs
    · rw [hd] at hrunning
      rcases hrests with ⟨hr, -⟩ | ⟨hr, -⟩ <;> rw [hrunning] at hr <;> cases hr
  rcases hm.partition with hsame | ⟨y, node, isErrorHandler, -, -, -, hmode⟩ | ⟨hmode, -⟩
  · exact ⟨hsame.nextProc ▸ h.allocated, hsame.operatingMode.trans h.normal,
      hsame.errorHandlerProcess ▸ h.notHandler, hidle', hcontext.trans h.context, hperiod.trans h.aperiodic,
      hdelay.trans h.undelayed, hrests⟩
  · exact absurd h.normal hmode
  · exact hmode.elim

theorem Unwoken.moves (h : Unwoken p x b s) (hm : Moves (unwakening p x b) s s') : Unwoken p x b s' := by
  induction hm with
  | refl => exact h
  | tail _ hm ih => exact ih.move hm

/-! ## Steps -/

/-- The permissions of a step do not ask for a mode unless it sets one. -/
theorem Permits.noMode {A : Permit} {e : Action} (h : Permits { A with mode := fun _ => True } s e)
    (hmode : ∀ mode, e ≠ .call (.setPartitionMode mode)) :
    Permits { A with mode := fun _ => False } s e := by
  refine ⟨h.giveBack, fun service hservice => ?_, h.wake, h.fault, fun he hs => ?_⟩
  · have hcall := h.call service hservice
    cases service with
    | setPartitionMode mode => exact absurd hservice (hmode mode)
    | _ => exact hcall
  · obtain ⟨hdispatch, htick⟩ := h.loop he hs
    exact ⟨hdispatch, fun hnew => ⟨(htick hnew).release, (htick hnew).expire, (htick hnew).ports⟩⟩

/-- A tick that wakes the process at no port. -/
theorem Unwoken.mayTick (h : Unwoken p x b s) (hports : ¬ s.WokenAtPort p) : MayTick (unwakening p x s) s := by
  refine ⟨?_, ?_, ?_⟩
  · rintro p' - hdue rfl
    exact h.not_released hdue
  · rintro p' - hdue rfl
    obtain ⟨hrecord, huptime⟩ := h.released
    rw [hrecord, huptime] at hdue
    exact h.timeUp hdue
  · rintro p' hwoken rfl
    exact hports hwoken

theorem Spares.permits {e : Action} (hspares : Spares p s e) (hloop : e ≠ .loop) :
    Permits (unwakening p x b) s e := by
  have hwakes : ∀ service, e = .call service → ∀ p', Wakes s service p' → p' ≠ p := by
    rintro service rfl p' hwakes rfl
    cases service
    case suspend | resume | stop | raiseApplicationError | setPartitionMode => cases hwakes
    all_goals exact hspares hwakes
  refine Permits.noMode (A := unwakening p x b) (MayAct.permits {
    wake := fun _ => hwakes
    grant := fun _ => hwakes
    dispatch := fun he => absurd he hloop
    tick := fun he => absurd he hloop
    suspend := ?_
    resume := ?_
    stop := ?_
    ignore := ?_ }) ?_
  · rintro processId node rfl hnode - - -
    exact hspares node hnode
  · rintro processId node rfl hnode
    exact hspares node hnode
  · rintro processId node rfl hnode
    exact hspares node hnode
  · intro hraises c hc node hmem hid
    have hother : node.data ≠ p := by
      cases e with
      | call service =>
          cases service
          case raiseApplicationError => exact hspares c hc node hmem hid
          all_goals cases hraises
      | fault => exact hspares c hc node hmem hid
      | _ => cases hraises
    exact ⟨hother, hother⟩
  · rintro mode rfl
    exact hspares

/-- The clock does not go back. -/
theorem uptime_le_step {e : Action} (hstep : s.step e = some s') : s.krnl.uptime ≤ s'.krnl.uptime := by
  by_cases hkernel : e.isKernel = true
  · cases e with
    | kernel uptime ticks windowsIdx majorFrameCount samplingChannels queuingChannels =>
        simp only [step, stepOutcome, Option.map_eq_some_iff, Option.ite_none_right_eq_some] at hstep
        obtain ⟨o, ⟨hle, ho⟩, rfl⟩ := hstep
        cases Option.some.inj ho
        exact hle
    | _ => cases hkernel
  · exact (step_clock (by simpa using hkernel) hstep).1.ge

theorem TimeUp.step {e : Action} (h : TimeUp x s) (hstep : s.step e = some s') : TimeUp x s' := by
  have hle := uptime_le_step hstep
  obtain ⟨harmed, hdue, hfinite⟩ := h
  exact ⟨harmed, by omega, hfinite⟩

/-- What is known of a state remains known later. -/
theorem Unwoken.since (h : Unwoken p x b s) (hlater : TimeUp x b → TimeUp x s') : Unwoken p x s' s :=
  { h with rests := h.rests.imp_right fun hready => ⟨hready.1, hready.2.1, hlater hready.2.2⟩ }

/-- A turn of the loop leaves the process unwoken, or resumes it because its time-out has come. -/
theorem Unwoken.turn {r : Option Result} (h : Unwoken p x s s)
    (hports : s.krnl.ticks ≠ s.lastTick → ¬ s.WokenAtPort p) (hstep : s.stepOutcome .loop = some (s', r)) :
    Unwoken p x s s' ∨ ∃ t, Unwoken p x s t ∧ Resumes p t (s', r) := by
  have hctl : s.ctl = .partitionOs ∧ some s.partitionOsLoop = some (s', r) := by
    simpa [stepOutcome] using hstep
  obtain ⟨hctl, hout⟩ := hctl
  have hstarting : ¬ (s.status.operatingMode = .coldStart ∨ s.status.operatingMode = .warmStart) := by
    rw [h.normal]
    exact fun hs => by rcases hs with hs | hs <;> cases hs
  have htick : Moves (unwakening p x s) s (if s.krnl.ticks ≠ s.lastTick then s.newTick else s)
      ∧ SameOs s (if s.krnl.ticks ≠ s.lastTick then s.newTick else s) := by
    split
    · next hnew => exact newTick_moves hctl (h.mayTick (hports hnew))
    · exact ⟨.refl, .refl s⟩
  have hdispatched : s.dispatched
      = (if s.krnl.ticks ≠ s.lastTick then s.newTick else s).processSchedule := rfl
  generalize (if s.krnl.ticks ≠ s.lastTick then s.newTick else s) = t at htick hdispatched
  obtain ⟨hmoves, hsame⟩ := htick
  have ht := h.moves hmoves
  have hidle := ht.not_running
  obtain ⟨proc, current, hsched, -, -⟩ := processSchedule_eq t
  have hnormal : t.processSchedule.status.operatingMode = .normal := by
    rw [hsched]
    exact ht.normal
  -- unless it is dispatched, the scheduler leaves the process alone
  have hstill : (∀ c, t.processSchedule.processCurrent = some c → c.data ≠ p) →
      Unwoken p x s t.processSchedule := by
    intro hcur
    have hrecord := processSchedule_other ht.notHandler hidle hcur
    refine ⟨?_, hnormal, ?_, ?_, hrecord ▸ ht.context, hrecord ▸ ht.aperiodic, hrecord ▸ ht.undelayed,
      hrecord ▸ ht.rests⟩
    · rw [hsched]
      exact ht.allocated
    · rw [hsched]
      exact ht.notHandler
    · refine not_calls_of_os ?_
      rw [hsched]
      exact hsame.ctl.trans hctl
  rw [partitionOsLoop_eq, if_neg hstarting, hdispatched] at hout
  cases hcur : t.processSchedule.processCurrent with
  | none =>
      rw [hcur] at hout
      cases Option.some.inj hout
      exact Or.inl (hstill fun c hc => by rw [hcur] at hc; cases hc)
  | some c =>
      rw [hcur] at hout
      dsimp only at hout
      rw [if_pos hnormal] at hout
      by_cases hd : c.data = p
      · obtain ⟨hready, hrecord⟩ := processSchedule_dispatches hidle hcur hd
        refine Or.inr ⟨t, ht, hready, hrecord, ⟨c, hcur, hd⟩, ?_⟩
        rw [← hd]
        exact Option.some.inj hout
      · have hothers := hstill fun c' hc' => by
          rw [hcur] at hc'
          cases hc'
          exact hd
        obtain ⟨hmem, hself⟩ := processSchedule_current hcur
        have hresume : Moves (unwakening p x s) t.processSchedule
            ({ t.processSchedule with ctl := .process }.resumeContext c.data).1 :=
          .head (.run _ c hcur hmem hself hnormal) (resumeContext_moves (Or.inl rfl) hcur)
        rw [Option.some.inj hout] at hresume
        exact Or.inl (hothers.moves hresume)

/-- So does every step that spares it. -/
theorem Unwoken.step {e : Action} {r : Option Result} (h : Unwoken p x s s) (hsound : Sound s)
    (hspares : Spares p s e) (hstep : s.stepOutcome e = some (s', r)) :
    Unwoken p x s' s' ∨ e = .loop ∧ ∃ t, Unwoken p x s t ∧ Resumes p t (s', r) := by
  have hstep' : s.step e = some s' := Option.map_eq_some_iff.mpr ⟨_, hstep, rfl⟩
  have hlater : TimeUp x s → TimeUp x s' := fun hup => hup.step hstep'
  by_cases hloop : e = .loop
  · subst hloop
    have hstarting : ¬ Starting s := by
      rw [Starting, h.normal]
      exact fun hs => by rcases hs with hs | hs <;> cases hs
    rcases h.turn (hspares hstarting) hstep with hsame | hresumes
    · exact Or.inl (hsame.since hlater)
    · exact Or.inr ⟨rfl, hresumes⟩
  · have hmoves : Moves (unwakening p x s) s s' := step_moves hsound.running (hspares.permits hloop) hstep'
    exact Or.inl ((h.moves hmoves).since hlater)

/-- A process that is resumed unwoken has timed out. -/
theorem Unwoken.resumed {t : Pcb} {o : Outcome} (h : Unwoken p x b t) (hresumes : Resumes p t o) :
    (t.proc p).timeCounter = 0 ∧ TimeUp x b := by
  rcases h.rests with ⟨hwaiting, -⟩ | ⟨-, hzero, hup⟩
  · have hready := hresumes.ready
    rw [hwaiting] at hready
    cases hready
  · exact ⟨hzero, hup⟩

/-! ## Runs -/

/-- A run that restarts nothing frees no process. -/
theorem freesNoWaiter_of_run {es : List Action} (hrun : Transition.run Pcb.step s es = some s')
    (hmodes : ∀ e ∈ es, ∀ mode, e = .call (.setPartitionMode mode) → mode = 3) :
    Transition.GuardedRun Pcb.step FreesNoWaiter s es s' := by
  refine (Transition.GuardedRun.of_run hrun hmodes).mono fun u e hmode => ?_
  cases e with
  | call service =>
      cases service with
      | setPartitionMode mode =>
          rw [hmode mode rfl]
          rintro (hcold | ⟨hwarm, -⟩) <;> contradiction
      | _ => trivial
  | _ => trivial

/-- In every state a partition reaches, if no restart has freed a waiting process, an aperiodic process that waits,
    and whose start is not delayed, waits on with its time-out as it is through every run that does not wake it, name
    it, report an error under its identifier or set the mode; unless, in the end, its time-out has come. -/
theorem waits_until_woken (period identifier : Int) (conf : PartitionConf) (maxErrors : Nat) (krnl : Krnl)
    (memory : Nat → Process) (lastTick : Nat) {es es' : List Action} {t : Pcb}
    (hrun : Transition.GuardedRun Pcb.step FreesNoWaiter
      (partitionInit period identifier conf maxErrors krnl memory lastTick).startPartitionOs es s)
    (hlinked : ∃ n ∈ s.processes, n.data = p) (hnormal : s.status.operatingMode = .normal)
    (hhandler : s.errorHandlerProcess ≠ some p) (hwaiting : (s.proc p).processState = .waiting)
    (hperiod : (s.proc p).attributes.period = infiniteTimeValue) (hdelay : (s.proc p).savedInitDelay = 0)
    (hspared : Transition.GuardedRun Pcb.step (Spares p) s es' t) :
    ((t.proc p).processState = .waiting ∧ (t.proc p).timeCounter = (s.proc p).timeCounter
        ∧ (t.proc p).context = (s.proc p).context)
      ∨ ((s.proc p).timeCounter ≠ 0 ∧ (s.proc p).timeCounter ≠ infiniteTimeValue
        ∧ (s.proc p).timeCounter ≤ t.krnl.uptime) := by
  obtain ⟨hsound, hqueues⟩ := queues_of_run period identifier conf maxErrors krnl memory lastTick hrun.run_eq
  have hidle : ¬ Calls s p := fun hcalls => (hcalls.active hsound).1 hwaiting
  have hstart : Unwoken p (s.proc p) s s := ⟨hqueues.allocated p (Or.inl hlinked), hnormal, hhandler, hidle,
    rfl, hperiod, hdelay, Or.inl ⟨hwaiting, rfl⟩⟩
  have hkept := hspared.invariant (I := fun u => Sound u ∧ (Unwoken p (s.proc p) u u ∨ TimeUp (s.proc p) u)) ?_
    ⟨hsound, Or.inl hstart⟩
  · rcases hkept.2 with hunwoken | ⟨harmed, hdue, hfinite⟩
    · rcases hunwoken.rests with ⟨hstill, htimer⟩ | ⟨-, -, harmed, hdue, hfinite⟩
      · exact Or.inl ⟨hstill, htimer, hunwoken.context⟩
      · exact Or.inr ⟨harmed, hfinite, hdue⟩
    · exact Or.inr ⟨harmed, hfinite, hdue⟩
  · rintro u e u' ⟨hu, hcase⟩ hspares hstep
    refine ⟨hu.step hstep, ?_⟩
    obtain ⟨⟨u', r⟩, hout, rfl⟩ := Option.map_eq_some_iff.mp hstep
    rcases hcase with hunwoken | hup
    · rcases hunwoken.step hu hspares hout with hstill | ⟨-, v, hv, hresumes⟩
      · exact Or.inl hstill
      · exact Or.inr ((hv.resumed hresumes).2.step hstep)
    · exact Or.inr (hup.step hstep)

/-- Process 0 waits for an event on, while process 1 resets it, time passes and a priority changes. -/
theorem waits_until_woken_reset : ∃ s t, Transition.run Pcb.step (defaultPartition 1) timedWaiter = some s
    ∧ Transition.run Pcb.step s [.call (.resetEvent 1), clockAt 500 5, .call (.setPriority 2 45)] = some t
    ∧ (((t.proc 0).processState = .waiting ∧ (t.proc 0).timeCounter = (s.proc 0).timeCounter
        ∧ (t.proc 0).context = (s.proc 0).context)
      ∨ ((s.proc 0).timeCounter ≠ 0 ∧ (s.proc 0).timeCounter ≠ infiniteTimeValue
        ∧ (s.proc 0).timeCounter ≤ t.krnl.uptime)) := by
  have hboth : ((Transition.run Pcb.step (defaultPartition 1) timedWaiter).bind fun s =>
      (Transition.run Pcb.step s [.call (.resetEvent 1), clockAt 500 5, .call (.setPriority 2 45)]).map fun _ =>
        (s.processes, decide (s.status.operatingMode = .normal), s.errorHandlerProcess,
          decide ((s.proc 0).processState = .waiting), (s.proc 0).attributes.period, (s.proc 0).savedInitDelay))
      = some ([⟨0, 0⟩, ⟨1, 1⟩], true, none, true, infiniteTimeValue, 0) := by decide
  obtain ⟨s, hs, hboth⟩ := Option.bind_eq_some_iff.mp hboth
  obtain ⟨t, ht, hfields⟩ := Option.map_eq_some_iff.mp hboth
  simp only [Prod.mk.injEq, decide_eq_true_eq] at hfields
  obtain ⟨hprocesses, hnormal, hhandler, hwaiting, hperiod, hdelay⟩ := hfields
  have hspared : Transition.GuardedRun Pcb.step (Spares 0) s
      [.call (.resetEvent 1), clockAt 500 5, .call (.setPriority 2 45)] t := by
    refine (Transition.GuardedRun.of_run (P := fun e => ∀ u, Spares 0 u e) ht ?_).mono fun u _ h => h u
    simp [Spares, Wakes, clockAt]
  exact ⟨s, t, hs, ht, waits_until_woken 50 1 defaultPartitionConf 10 defaultKrnl (fun _ => zeroProcess) 0
    (freesNoWaiter_of_run hs (by simp [timedWaiter])) ⟨⟨0, 0⟩, by simp [hprocesses], rfl⟩ hnormal (by simp [hhandler])
    hwaiting hperiod hdelay hspared⟩

/-! ## Calls that time out -/

/-- The time-out of a service that can make its caller wait in a list of a resource. -/
def timeOut? : Service → Option Int
  | .readBlackboard _ timeOut | .sendBuffer _ _ _ timeOut | .receiveBuffer _ timeOut _
  | .waitSemaphore _ timeOut | .waitEvent _ timeOut | .acquireMutex _ timeOut => some timeOut
  | _ => none

/-- Whether the wait that ends in a context is timed. -/
def timedWait? : Context → Option Bool
  | .readBlackboard _ timed | .sendBuffer timed | .receiveBuffer _ timed
  | .waitSemaphore timed | .waitEvent timed | .acquireMutex timed => some timed
  | _ => none

/-- Process `p`, which is not the error handler, waits from state `s` on with time-out `timeOut`, in the list its
    call of `service` names. -/
structure BeginsWait (p : Nat) (service : Service) (timeOut : Int) (s s' : Pcb) : Prop where
  notHandler : s.errorHandlerProcess ≠ some p
  valid : timeOut = infiniteTimeValue ∨ 0 < timeOut
  state : ∃ t q linked discipline k, (∀ q', Blocks s service q' → q' = q) ∧ Noted s p t
    ∧ timedWait? k = some (decide (timeOut ≠ infiniteTimeValue))
    ∧ s' = ((t.waitOn p q linked discipline (if timeOut = infiniteTimeValue then none
      else some (s.fromNow timeOut))).yieldToPartition p k).1

theorem BeginsWait.of_infinite {t : Pcb} {q : WaitList} {linked : Bool} {discipline : QueuingDiscipline}
    {k : Bool → Context} {service : Service} {timeOut : Int} (hnot : s.errorHandlerProcess ≠ some p)
    (hvalid : timeOut = infiniteTimeValue ∨ 0 < timeOut) (hq : ∀ q', Blocks s service q' → q' = q)
    (ht : Noted s p t)
    (hk : ∀ timed, timedWait? (k timed) = some timed) (hinf : timeOut = infiniteTimeValue) :
    BeginsWait p service timeOut s ((t.waitOn p q linked discipline none).yieldToPartition p (k false)).1 :=
  ⟨hnot, hvalid, t, q, linked, discipline, k false, hq, ht, by simp [hk, hinf], by rw [if_pos hinf]⟩

theorem BeginsWait.of_timed {t : Pcb} {q : WaitList} {linked : Bool} {discipline : QueuingDiscipline}
    {k : Bool → Context} {service : Service} {timeOut : Int} (hnot : s.errorHandlerProcess ≠ some p)
    (hvalid : timeOut = infiniteTimeValue ∨ 0 < timeOut) (hq : ∀ q', Blocks s service q' → q' = q)
    (ht : Noted s p t)
    (hk : ∀ timed, timedWait? (k timed) = some timed) (hfinite : timeOut ≠ infiniteTimeValue) :
    BeginsWait p service timeOut s
      ((t.waitOn p q linked discipline (some (s.fromNow timeOut))).yieldToPartition p (k true)).1 :=
  ⟨hnot, hvalid, t, q, linked, discipline, k true, hq, ht, by simp [hk, hfinite], by rw [if_neg hfinite]⟩

/-- Being woken, or going back to the operating system, makes no process wait. -/
theorem not_waiting_of_yield {c : Nat} {k : Context} (h : (s.proc p).processState ≠ .waiting) :
    ((s.yieldToPartition c k).1.proc p).processState ≠ .waiting := by
  obtain ⟨k', hk⟩ := yield_proc s c k p
  rw [hk]
  exact h

theorem not_waiting_of_wake {q : WaitList} {cancel : Bool} {woken : Nat}
    (h : (s.proc p).processState ≠ .waiting) (hwake : s.wakeFirst q cancel = some (woken, s')) :
    (s'.proc p).processState ≠ .waiting := by
  rw [wakeFirst_proc hwake]
  split
  · exact ProcessState.noConfusion
  · exact h

theorem notHandler_of_can (h : s.cannotBlock p = false) : s.errorHandlerProcess ≠ some p := by
  unfold cannotBlock at h
  simp only [Bool.or_eq_false_iff, decide_eq_false_iff_not] at h
  exact h.2

@[simp] theorem emit_proc (s : Pcb) (o : Obs) : (s.emit o).proc = s.proc := rfl

/-- The caller has noted which message it sends, or where it receives one. -/
theorem noted_message (area : Process → Area) (size : Process → Int) :
    Noted s p (s.modProc p fun x => { x with waitingMessage := area x, waitingMessageSize := size x }) :=
  Or.inr ⟨_, touched_message area size, rfl⟩

theorem readBlackboard_beginsWait {blackboardId timeOut : Int} {c : Node} (hc : s.processCurrent = some c)
    (hnone : (s.readBlackboard blackboardId timeOut).2 = none) :
    BeginsWait c.data (.readBlackboard blackboardId timeOut) timeOut s (s.readBlackboard blackboardId timeOut).1 := by
  cases hi : s.findBlackboardById blackboardId with
  | none =>
      unfold readBlackboard at hnone
      rw [hi] at hnone
      cases hnone
  | some i =>
      have hlist : ∀ q', Blocks s (.readBlackboard blackboardId timeOut) q' → q' = .blackboard i := by
        rintro _ ⟨-, j, hj, -, rfl⟩
        rw [hi] at hj
        cases hj
        rfl
      unfold readBlackboard withCurrent at hnone ⊢
      rw [hi, hc] at hnone ⊢
      dsimp only at hnone ⊢
      split_ifs at hnone ⊢ with hinvalid hoccupied hzero hcannot hinf
      iterate 4 cases hnone
      all_goals
        have hnot := notHandler_of_can (by simpa using hcannot)
        have hvalid := timeOut_cases hinvalid hzero
      · exact .of_infinite (k := .readBlackboard i) hnot hvalid hlist (Or.inl rfl) (fun _ => rfl) hinf
      · exact .of_timed (k := .readBlackboard i) hnot hvalid hlist (Or.inl rfl) (fun _ => rfl) hinf

theorem waitSemaphore_beginsWait {semaphoreId timeOut : Int} {c : Node} (hc : s.processCurrent = some c)
    (hnone : (s.waitSemaphore semaphoreId timeOut).2 = none) :
    BeginsWait c.data (.waitSemaphore semaphoreId timeOut) timeOut s (s.waitSemaphore semaphoreId timeOut).1 := by
  cases hi : s.findSemaphoreById semaphoreId with
  | none =>
      unfold waitSemaphore at hnone
      rw [hi] at hnone
      cases hnone
  | some i =>
      have hlist : ∀ q', Blocks s (.waitSemaphore semaphoreId timeOut) q' → q' = .semaphore i := by
        rintro _ ⟨-, j, hj, -, rfl⟩
        rw [hi] at hj
        cases hj
        rfl
      unfold waitSemaphore withCurrent at hnone ⊢
      rw [hi, hc] at hnone ⊢
      dsimp only at hnone ⊢
      split_ifs at hnone ⊢ with hinvalid htoken hzero hcannot hinf
      iterate 4 cases hnone
      all_goals
        have hnot := notHandler_of_can (by simpa using hcannot)
        have hvalid := timeOut_cases hinvalid hzero
      · exact .of_infinite hnot hvalid hlist (Or.inl rfl) (fun _ => rfl) hinf
      · exact .of_timed hnot hvalid hlist (Or.inl rfl) (fun _ => rfl) hinf

theorem waitEvent_beginsWait {eventId timeOut : Int} {c : Node} (hc : s.processCurrent = some c)
    (hnone : (s.waitEvent eventId timeOut).2 = none) :
    BeginsWait c.data (.waitEvent eventId timeOut) timeOut s (s.waitEvent eventId timeOut).1 := by
  cases hi : s.findEventById eventId with
  | none =>
      unfold waitEvent at hnone
      rw [hi] at hnone
      cases hnone
  | some i =>
      have hlist : ∀ q', Blocks s (.waitEvent eventId timeOut) q' → q' = .event i := by
        rintro _ ⟨-, j, hj, -, rfl⟩
        rw [hi] at hj
        cases hj
        rfl
      unfold waitEvent withCurrent at hnone ⊢
      rw [hi, hc] at hnone ⊢
      dsimp only at hnone ⊢
      split_ifs at hnone ⊢ with hinvalid hup hzero hcannot hinf
      iterate 4 cases hnone
      all_goals
        have hnot := notHandler_of_can (by simpa using hcannot)
        have hvalid := timeOut_cases hinvalid hzero
      · exact .of_infinite hnot hvalid hlist (Or.inl rfl) (fun _ => rfl) hinf
      · exact .of_timed hnot hvalid hlist (Or.inl rfl) (fun _ => rfl) hinf

theorem acquireMutex_beginsWait {mutexId timeOut : Int} {c : Node} (hc : s.processCurrent = some c)
    (hnone : (s.acquireMutex mutexId timeOut).2 = none) :
    BeginsWait c.data (.acquireMutex mutexId timeOut) timeOut s (s.acquireMutex mutexId timeOut).1 := by
  unfold acquireMutex at hnone ⊢
  by_cases hlock : mutexId = preemptionLockMutex
  · rw [if_pos hlock] at hnone
    cases hnone
  · rw [if_neg hlock] at hnone ⊢
    cases hi : s.findMutexById mutexId with
    | none =>
        unfold krnlAcquireMutex at hnone
        rw [hi] at hnone
        cases hnone
    | some i =>
        have hlist : ∀ q', Blocks s (.acquireMutex mutexId timeOut) q' → q' = .mutex i := by
          rintro _ ⟨-, j, hj, rfl⟩
          rw [hi] at hj
          cases hj
          rfl
        unfold krnlAcquireMutex withCurrent at hnone ⊢
        rw [hi, hc] at hnone ⊢
        dsimp only at hnone ⊢
        split_ifs at hnone ⊢ with hinvalid howner hhandler hceiling havailable hown hmax hzero hinf
        iterate 8 cases hnone
        · exact .of_infinite hhandler (timeOut_cases hinvalid hzero) hlist (Or.inl rfl) (fun _ => rfl) hinf
        · exact .of_timed hhandler (timeOut_cases hinvalid hzero) hlist (Or.inl rfl) (fun _ => rfl) hinf

/-- `SEND_BUFFER` also does not return where it wakes a reader. -/
theorem sendBuffer_beginsWait {bufferId : Int} {messageAddr : Area} {length timeOut : Int} {c : Node}
    (hc : s.processCurrent = some c) (hactive : (s.proc c.data).processState ≠ .waiting)
    (hnone : (s.sendBuffer bufferId messageAddr length timeOut).2 = none)
    (hwaiting : ((s.sendBuffer bufferId messageAddr length timeOut).1.proc c.data).processState = .waiting) :
    BeginsWait c.data (.sendBuffer bufferId messageAddr length timeOut) timeOut s
      (s.sendBuffer bufferId messageAddr length timeOut).1 := by
  cases hi : s.findBufferById bufferId with
  | none =>
      unfold sendBuffer at hnone
      rw [hi] at hnone
      cases hnone
  | some i =>
      have hlist : ∀ q', Blocks s (.sendBuffer bufferId messageAddr length timeOut) q' →
          q' = .bufferWriters i := by
        rintro _ ⟨-, j, hj, -, rfl⟩
        rw [hi] at hj
        cases hj
        rfl
      unfold sendBuffer withCurrent at hnone hwaiting ⊢
      rw [hi, hc] at hnone hwaiting ⊢
      dsimp only at hnone hwaiting ⊢
      by_cases hroom : (s.res.buffers i).nbMessage < (s.res.buffers i).maxNbMessage
      · simp only [if_pos hroom] at hnone hwaiting
        split_ifs at hnone hwaiting with hlong hshort hinvalid
        iterate 3 cases hnone
        split at hnone
        · cases hnone
        · next reader u hwake =>
            rw [hwake] at hwaiting
            refine absurd hwaiting (not_waiting_of_yield ?_)
            have hwoken := not_waiting_of_wake hactive hwake
            simp only [emit_proc, modProc_proc]
            split
            · next heq => exact heq ▸ hwoken
            · exact hwoken
      · simp only [if_neg hroom] at hnone ⊢
        split_ifs at hnone ⊢ with hlong hshort hinvalid hzero hcannot hinf
        iterate 5 cases hnone
        all_goals
          have hnot := notHandler_of_can (by simpa using hcannot)
          have hvalid := timeOut_cases hinvalid hzero
        · exact .of_infinite hnot hvalid hlist (noted_message _ _) (fun _ => rfl) hinf
        · exact .of_timed hnot hvalid hlist (noted_message _ _) (fun _ => rfl) hinf

/-- `RECEIVE_BUFFER` also does not return where it wakes a writer. -/
theorem receiveBuffer_beginsWait {bufferId timeOut : Int} {messageAddr : Area} {c : Node}
    (hc : s.processCurrent = some c) (hactive : (s.proc c.data).processState ≠ .waiting)
    (hnone : (s.receiveBuffer bufferId timeOut messageAddr).2 = none)
    (hwaiting : ((s.receiveBuffer bufferId timeOut messageAddr).1.proc c.data).processState = .waiting) :
    BeginsWait c.data (.receiveBuffer bufferId timeOut messageAddr) timeOut s
      (s.receiveBuffer bufferId timeOut messageAddr).1 := by
  cases hi : s.findBufferById bufferId with
  | none =>
      unfold receiveBuffer at hnone
      rw [hi] at hnone
      cases hnone
  | some i =>
      have hlist : ∀ q', Blocks s (.receiveBuffer bufferId timeOut messageAddr) q' → q' = .bufferReaders i := by
        rintro _ ⟨-, j, hj, -, rfl⟩
        rw [hi] at hj
        cases hj
        rfl
      unfold receiveBuffer withCurrent at hnone hwaiting ⊢
      rw [hi, hc] at hnone hwaiting ⊢
      dsimp only at hnone hwaiting ⊢
      by_cases hmessage : 0 < (s.res.buffers i).nbMessage
      · simp only [if_pos hmessage] at hnone hwaiting
        split_ifs at hnone hwaiting with hinvalid
        · cases hnone
        split at hnone
        · cases hnone
        · next writer u hwake =>
            rw [hwake] at hwaiting
            have hwoken := not_waiting_of_wake (s := s.takeMessage i c.data) hactive hwake
            exact absurd hwaiting (not_waiting_of_yield hwoken)
      · simp only [if_neg hmessage] at hnone ⊢
        split_ifs at hnone ⊢ with hinvalid hzero hcannot hinf
        iterate 3 cases hnone
        all_goals
          have hnot := notHandler_of_can (by simpa using hcannot)
          have hvalid := timeOut_cases hinvalid hzero
        · exact .of_infinite (k := .receiveBuffer i) hnot hvalid hlist (noted_message _ _) (fun _ => rfl) hinf
        · exact .of_timed (k := .receiveBuffer i) hnot hvalid hlist (noted_message _ _) (fun _ => rfl) hinf

/-- What such a call does if its caller, which did not wait, waits at its end. -/
theorem beginsWait_of_call {service : Service} {timeOut : Int} {c : Node}
    (htimeOut : timeOut? service = some timeOut) (hc : s.processCurrent = some c)
    (hactive : (s.proc c.data).processState ≠ .waiting) (hexec : s.exec service = (s', none))
    (hwaiting : (s'.proc c.data).processState = .waiting) : BeginsWait c.data service timeOut s s' := by
  obtain rfl : (s.exec service).1 = s' := by rw [hexec]
  have hnone : (s.exec service).2 = none := by rw [hexec]
  cases service with
  | readBlackboard | sendBuffer | receiveBuffer | waitSemaphore | waitEvent | acquireMutex =>
      cases Option.some.inj htimeOut
      first
      | exact readBlackboard_beginsWait hc hnone
      | exact waitSemaphore_beginsWait hc hnone
      | exact waitEvent_beginsWait hc hnone
      | exact acquireMutex_beginsWait hc hnone
      | exact sendBuffer_beginsWait hc hactive hnone hwaiting
      | exact receiveBuffer_beginsWait hc hactive hnone hwaiting
  | _ => cases htimeOut

/-- The state a process leaves that begins to wait. -/
structure BegunWait (p : Nat) (service : Service) (timeOut : Int) (s s' : Pcb) : Prop where
  allocated : p < s'.nextProc
  normal : s'.status.operatingMode = .normal
  notHandler : s'.errorHandlerProcess ≠ some p
  idle : ¬ Calls s' p
  record : ∃ q linked k y, Touched (s.proc p) y ∧ s'.proc p = { blockedRecord q linked
      (if timeOut = infiniteTimeValue then none else some (s.fromNow timeOut)) y with context := k }
    ∧ timedWait? k = some (decide (timeOut ≠ infiniteTimeValue))
    ∧ (∀ q', Blocks s service q' → q' = q) ∧ p ∈ s'.waitingProcesses q

theorem BeginsWait.begun {service : Service} {timeOut : Int} (h : BeginsWait p service timeOut s s')
    (hsound : Sound s) (hqueues : Queues s) (hcalls : Calls s p) : BegunWait p service timeOut s s' := by
  obtain ⟨hnot, -, t, q, linked, discipline, k, hlist, ht, hk, rfl⟩ := h
  have hnormal : s.status.operatingMode = .normal := by
    obtain ⟨hrun | hmain, c, hc, -⟩ := id hcalls
    · exact (hsound.process hrun).1
    · rw [(hsound.starting (hsound.main hmain)).1] at hc
      cases hc
  have hallocated : p < s.nextProc := hqueues.allocated p (.of_calls hcalls)
  have htouched : Touched (s.proc p) (t.proc p) := by
    rcases ht with rfl | ⟨f, hf, rfl⟩
    · exact ⟨rfl, rfl, rfl, rfl, rfl, rfl, rfl, rfl, rfl, rfl, rfl, rfl, rfl, rfl⟩
    · rw [modProc_proc_self]
      exact hf _
  have hsame : t.nextProc = s.nextProc ∧ t.status = s.status ∧ t.errorHandlerProcess = s.errorHandlerProcess := by
    rcases ht with rfl | ⟨f, hf, rfl⟩ <;> exact ⟨rfl, rfl, rfl⟩
  have hmem : p ∈ ((t.waitOn p q linked discipline (if timeOut = infiniteTimeValue then none
      else some (s.fromNow timeOut))).yieldToPartition p k).1.waitingProcesses q := by
    obtain ⟨l, hperm, hlists, -⟩ := blocked_joins t p q linked discipline _ k
    rw [hlists, Function.update_self, hperm.mem_iff]
    exact List.mem_cons_self
  rw [blocked_eq] at hmem ⊢
  exact ⟨hsame.1 ▸ hallocated, hsame.2.1 ▸ hnormal, hsame.2.2 ▸ hnot, not_calls_of_os rfl,
    q, linked, k, t.proc p, htouched, Function.update_self _ _ _, hk, hlist, hmem⟩

/-- A process that begins to wait has not been woken. -/
theorem BegunWait.unwoken {service : Service} {timeOut : Int} (h : BegunWait p service timeOut s s')
    (hperiod : (s.proc p).attributes.period = infiniteTimeValue) (hdelay : (s.proc p).savedInitDelay = 0) :
    Unwoken p (s'.proc p) s' s'
      ∧ timedWait? (s'.proc p).context = some (decide (timeOut ≠ infiniteTimeValue))
      ∧ (s'.proc p).timeCounter
        = if timeOut = infiniteTimeValue then (s.proc p).timeCounter else s.fromNow timeOut := by
  obtain ⟨hallocated, hnormal, hnot, hidle, q, linked, k, y, hy, hrecord, hk, -, -⟩ := h
  have htimer : (s'.proc p).timeCounter
      = if timeOut = infiniteTimeValue then (s.proc p).timeCounter else s.fromNow timeOut := by
    rw [hrecord]
    show (if timeOut = infiniteTimeValue then none else some (s.fromNow timeOut)).getD y.timeCounter = _
    rw [hy.timeCounter]
    split <;> rfl
  have hcontext : (s'.proc p).context = k := by rw [hrecord]
  have hattributes : (s'.proc p).attributes = (s.proc p).attributes := by
    rw [hrecord]
    exact hy.attributes
  have hdelay' : (s'.proc p).savedInitDelay = (s.proc p).savedInitDelay := by
    rw [hrecord]
    exact hy.savedInitDelay
  have hwaiting : (s'.proc p).processState = .waiting := by
    rw [hrecord]
    rfl
  exact ⟨⟨hallocated, hnormal, hnot, hidle, rfl, hattributes ▸ hperiod, hdelay'.trans hdelay,
    Or.inl ⟨hwaiting, rfl⟩⟩, hcontext ▸ hk, htimer⟩

/-- A process that begins to wait is in its list, and does not execute. -/
theorem BegunWait.inWait {service : Service} {timeOut : Int} {q : WaitList} (h : BegunWait p service timeOut s s')
    (hvalid : timeOut = infiniteTimeValue ∨ 0 < timeOut) (hq : Blocks s service q) : Passive p s'
      ∧ timedWait? (s'.proc p).context = some (decide (timeOut ≠ infiniteTimeValue))
      ∧ InWait p q (s'.proc p).context (decide (timeOut ≠ infiniteTimeValue)) s' := by
  obtain ⟨hallocated, hnormal, hnot, hidle, q', linked, k, y, hy, hrecord, hk, hlist, hmem⟩ := h
  obtain rfl := hlist q hq
  have hcontext : (s'.proc p).context = k := by rw [hrecord]
  refine ⟨⟨hallocated, hnormal, hnot, Or.inl ?_, hidle⟩, hcontext ▸ hk, rfl, fun _ => hmem,
    fun _ => Or.inr (Or.inr hmem), fun htimed _ => ?_⟩
  · rw [hrecord]
    rfl
  · have hne := of_decide_eq_true htimed
    rw [hrecord]
    show (if timeOut = infiniteTimeValue then none else some (s.fromNow timeOut)).getD y.timeCounter ≠ 0
    rw [if_neg hne]
    exact (fromNow_pos hvalid hne).ne'

/-- A wait that is resumed after its timer has gone off reports it. -/
theorem Resumes.timedOut {t u : Pcb} {r : Option Result} (h : Resumes p t (u, r))
    (hcontext : timedWait? (t.proc p).context = some true) (htimer : (t.proc p).timeCounter = 0) :
    r = some { returnCode := .timedOut } := by
  obtain ⟨-, hrecord, -, hout⟩ := h
  have hrecord' : ({ t.processSchedule with ctl := .process } : Pcb).proc p
      = { t.proc p with processState := .running } := hrecord
  unfold resumeContext finishWait at hout
  rw [hrecord'] at hout
  dsimp only at hout
  rw [htimer] at hout
  generalize (t.proc p).context = k at hcontext hout
  cases k with
  | readBlackboard | sendBuffer | receiveBuffer | waitSemaphore | waitEvent | acquireMutex =>
      cases Option.some.inj hcontext
      obtain ⟨-, rfl⟩ := Prod.mk.inj hout
      rfl
  | _ => cases hcontext

/-- A process that resumes such a wait executes. -/
theorem Resumes.executes {t u : Pcb} {r : Option Result} {timed : Bool} (h : Resumes p t (u, r))
    (hcontext : timedWait? (t.proc p).context = some timed) : Calls u p := by
  obtain ⟨-, hrecord, ⟨c, hc, hd⟩, hout⟩ := h
  have hcontext' : timedWait? (({ t.processSchedule with ctl := .process } : Pcb).proc p).context = some timed := by
    show timedWait? (t.processSchedule.proc p).context = _
    rw [hrecord]
    exact hcontext
  suffices hsame : u.ctl = .process ∧ u.processCurrent = t.processSchedule.processCurrent from
    ⟨Or.inl hsame.1, c, hsame.2.trans hc, hd⟩
  unfold resumeContext finishWait at hout
  generalize (({ t.processSchedule with ctl := .process } : Pcb).proc p).context = k at hcontext' hout
  cases k with
  | readBlackboard | sendBuffer | receiveBuffer | waitSemaphore | waitEvent | acquireMutex =>
      dsimp only at hout
      split at hout <;> obtain ⟨rfl, -⟩ := Prod.mk.inj hout <;> exact ⟨rfl, rfl⟩
  | _ => cases hcontext'

/-- A wait that is resumed before its timer has gone off, or without one, succeeds. -/
theorem Resumes.succeeded {t u : Pcb} {r : Option Result} {timed : Bool} (h : Resumes p t (u, r))
    (hcontext : timedWait? (t.proc p).context = some timed) (htimer : timed = true → (t.proc p).timeCounter ≠ 0) :
    ∃ result, r = some result ∧ result.returnCode = .noError := by
  obtain ⟨-, hrecord, -, hout⟩ := h
  have hrecord' : ({ t.processSchedule with ctl := .process } : Pcb).proc p
      = { t.proc p with processState := .running } := hrecord
  unfold resumeContext finishWait at hout
  rw [hrecord'] at hout
  dsimp only at hout
  generalize (t.proc p).context = k at hcontext hout
  cases k with
  | readBlackboard | sendBuffer | receiveBuffer | waitSemaphore | waitEvent | acquireMutex =>
      cases Option.some.inj hcontext
      dsimp only at hout
      rw [if_neg fun hoff => htimer hoff.1 hoff.2] at hout
      obtain ⟨-, rfl⟩ := Prod.mk.inj hout
      exact ⟨_, rfl, rfl⟩
  | _ => cases hcontext

/-- If no restart has freed a waiting process: in every run of a partition in which nobody wakes it, names it,
    reports an error under its identifier or sets the mode, an aperiodic process without delayed start that waits in
    `WAIT_SEMAPHORE`, `WAIT_EVENT`, `READ_BLACKBOARD`, `SEND_BUFFER`, `RECEIVE_BUFFER` or `ACQUIRE_MUTEX` executes
    again only when its time-out has come, and the service then returns `TIMED_OUT`. -/
theorem unwoken_calls_time_out (period identifier : Int) (conf : PartitionConf) (maxErrors : Nat) (krnl : Krnl)
    (memory : Nat → Process) (lastTick : Nat) {es es' : List Action} {t t' : Pcb} {service : Service}
    {timeOut : Int} {e : Action} {r : Option Result}
    (hrun : Transition.GuardedRun Pcb.step FreesNoWaiter
      (partitionInit period identifier conf maxErrors krnl memory lastTick).startPartitionOs es s)
    (hcalls : Calls s p) (htimeOut : timeOut? service = some timeOut)
    (hblocks : s.stepOutcome (.call service) = some (s', none)) (hwaiting : (s'.proc p).processState = .waiting)
    (hperiod : (s.proc p).attributes.period = infiniteTimeValue) (hdelay : (s.proc p).savedInitDelay = 0)
    (hunarmed : timeOut = infiniteTimeValue →
      (s.proc p).timeCounter = 0 ∨ (s.proc p).timeCounter = infiniteTimeValue)
    (hspared : Transition.GuardedRun Pcb.step (fun u e => Spares p u e ∧ ¬ Calls u p) s' es' t)
    (hidle : ¬ Calls t p) (hspares : Spares p t e) (hreturn : t.stepOutcome e = some (t', r))
    (hexecutes : Calls t' p) : timeOut ≠ infiniteTimeValue ∧ s.krnl.uptime + timeOut ≤ t'.krnl.uptime
      ∧ r = some { returnCode := .timedOut } := by
  obtain ⟨hsound, hqueues⟩ := queues_of_run period identifier conf maxErrors krnl memory lastTick hrun.run_eq
  have hexec : s.exec service = (s', none) := by
    rw [call_outcome hcalls.1] at hblocks
    exact Option.some.inj hblocks
  have hbegins : BeginsWait p service timeOut s s' := by
    obtain ⟨-, c, hc, rfl⟩ := id hcalls
    exact beginsWait_of_call htimeOut hc (hcalls.active hsound).1 hexec hwaiting
  obtain ⟨hunwoken, hcontext, htimer⟩ := (hbegins.begun hsound hqueues hcalls).unwoken hperiod hdelay
  have hsound' : Sound s' := hsound.step (e := .call service) (Option.map_eq_some_iff.mpr ⟨_, hblocks, rfl⟩)
  have hkept := hspared.invariant (I := fun u => Sound u ∧ (Calls u p ∨ Unwoken p (s'.proc p) u u)) ?_
    ⟨hsound', Or.inr hunwoken⟩
  · obtain ⟨hsoundT, hcase⟩ := hkept
    have hunwokenT := hcase.resolve_left hidle
    rcases hunwokenT.step hsoundT hspares hreturn with hstill | ⟨-, v, hv, hresumes⟩
    · exact absurd hexecutes hstill.idle
    · obtain ⟨hzero, hup⟩ := hv.resumed hresumes
      have hup' : TimeUp (s'.proc p) t' := hup.step (Option.map_eq_some_iff.mpr ⟨_, hreturn, rfl⟩)
      obtain ⟨harmed, hdue, hfinite⟩ := hup'
      have hne : timeOut ≠ infiniteTimeValue := by
        intro hinf
        rw [htimer, if_pos hinf] at harmed hfinite
        rcases hunarmed hinf with hoff | hoff
        · exact harmed hoff
        · exact hfinite hoff
      rw [htimer, if_neg hne] at hdue
      refine ⟨hne, hdue, hresumes.timedOut ?_ hzero⟩
      rw [hv.context, hcontext, decide_eq_true hne]
  · rintro u e u' ⟨hu, hcase⟩ ⟨hspares, hidle⟩ hstep
    refine ⟨hu.step hstep, ?_⟩
    obtain ⟨⟨u', r⟩, hout, rfl⟩ := Option.map_eq_some_iff.mp hstep
    rcases (hcase.resolve_left hidle).step hu hspares hout with hstill | ⟨-, v, hv, hresumes⟩
    · exact Or.inr hstill
    · exact Or.inl (hresumes.executes (by rw [hv.context, hcontext]))

/-- Nobody is woken at a port before the first port has a channel. -/
theorem not_wokenAtPort (h : (s.res.queuingPorts 0).channel = none) : ¬ s.WokenAtPort p := by
  rintro ⟨index, ⟨-, hchannels⟩, -⟩
  have hfirst := hchannels 0 (Nat.zero_le index)
  rw [h] at hfirst
  cases hfirst

/-- Two processes of a partition with an event. -/
def eventUsers : List Action :=
  [.loop, .call (.createEvent "E".toList), .call (.createProcess (aperiodicProcess "A".toList 50)),
    .call (.createProcess (aperiodicProcess "B".toList 40)), .call (.start 1), .call (.start 2),
    .call (.setPartitionMode 3), .loop]

/-- Process 0 waits for the event, process 1 resets it and sleeps: the wait times out. -/
theorem unwoken_calls_time_out_reset : ∃ s s' t t' r,
    Transition.run Pcb.step (defaultPartition 1) eventUsers = some s
      ∧ s.stepOutcome (.call (.waitEvent 1 1000)) = some (s', none)
      ∧ Transition.run Pcb.step s' [.loop, .call (.resetEvent 1), .call (.timedWait 2000), clockAt 1500 5] = some t
      ∧ t.stepOutcome .loop = some (t', r) ∧ s.krnl.uptime + 1000 ≤ t'.krnl.uptime
      ∧ r = some { returnCode := .timedOut } := by
  have hcall : ((Transition.run Pcb.step (defaultPartition 1) eventUsers).bind fun s =>
      (s.stepOutcome (.call (.waitEvent 1 1000))).map fun o =>
        (s.ctl, s.processCurrent, o.2.isNone, o.1.ctl, decide ((o.1.proc 0).processState = .waiting)))
      = some (.process, some ⟨0, 0⟩, true, .partitionOs, true) := by decide
  have hrecord : ((Transition.run Pcb.step (defaultPartition 1) eventUsers).map fun s =>
      ((s.proc 0).attributes.period, (s.proc 0).savedInitDelay)) = some (infiniteTimeValue, 0) := by decide
  have hturn : ((Transition.run Pcb.step (defaultPartition 1) (eventUsers ++ [.call (.waitEvent 1 1000)])).bind
      fun s' => (s'.step .loop).map fun u =>
        ((s'.res.queuingPorts 0).channel.isNone, u.processCurrent)) = some (true, some ⟨1, 1⟩) := by decide
  have hreturn : ((Transition.run Pcb.step (defaultPartition 1)
      (eventUsers ++ [.call (.waitEvent 1 1000), .loop])).bind fun u =>
        (u.step (.call (.resetEvent 1))).bind fun v => (v.step (.call (.timedWait 2000))).bind fun w =>
          (w.step (clockAt 1500 5)).bind fun t => (t.stepOutcome .loop).map fun o =>
            (v.processCurrent, w.ctl, t.ctl, (t.res.queuingPorts 0).channel.isNone, o.1.ctl, o.1.processCurrent))
      = some (some ⟨1, 1⟩, .partitionOs, .partitionOs, true, .process, some ⟨0, 0⟩) := by decide
  obtain ⟨s, hs, hcall⟩ := Option.bind_eq_some_iff.mp hcall
  obtain ⟨⟨s', o⟩, hblocks, hfields⟩ := Option.map_eq_some_iff.mp hcall
  simp only [Prod.mk.injEq, Option.isNone_iff_eq_none, decide_eq_true_eq] at hfields
  obtain ⟨hctl, hcurrent, rfl, hctl', hwaiting⟩ := hfields
  have hstep : s.step (.call (.waitEvent 1 1000)) = some s' := Option.map_eq_some_iff.mpr ⟨_, hblocks, rfl⟩
  simp only [Transition.run_append, hs, Option.bind_some, Transition.run_cons, Transition.run_nil, hstep,
    Option.map_some, Option.some.injEq, Prod.mk.injEq] at hrecord hturn hreturn
  obtain ⟨hperiod, hdelay⟩ := hrecord
  obtain ⟨u, hu, hfields⟩ := Option.map_eq_some_iff.mp hturn
  simp only [Prod.mk.injEq, Option.isNone_iff_eq_none] at hfields
  obtain ⟨hport', hcurrentU⟩ := hfields
  simp only [hu, Option.bind_some] at hreturn
  obtain ⟨v, hv, hreturn⟩ := Option.bind_eq_some_iff.mp hreturn
  obtain ⟨w, hw, hreturn⟩ := Option.bind_eq_some_iff.mp hreturn
  obtain ⟨t, ht, hreturn⟩ := Option.bind_eq_some_iff.mp hreturn
  obtain ⟨⟨t', r⟩, hout, hfields⟩ := Option.map_eq_some_iff.mp hreturn
  simp only [Prod.mk.injEq, Option.isNone_iff_eq_none] at hfields
  obtain ⟨hcurrentV, hctlW, hctlT, hportT, hctlT', hcurrentT'⟩ := hfields
  have hspared : Transition.GuardedRun Pcb.step (fun u e => Spares 0 u e ∧ ¬ Calls u 0) s'
      [.loop, .call (.resetEvent 1), .call (.timedWait 2000), clockAt 1500 5] t :=
    .cons ⟨fun _ _ => not_wokenAtPort hport', not_calls_of_os hctl'⟩ hu
      (.cons ⟨id, not_calls_of_other hcurrentU (by decide)⟩ hv
        (.cons ⟨id, not_calls_of_other hcurrentV (by decide)⟩ hw
          (.cons ⟨trivial, not_calls_of_os hctlW⟩ ht (.nil t))))
  obtain ⟨-, hdue, hresult⟩ := unwoken_calls_time_out 50 1 defaultPartitionConf 10 defaultKrnl
    (fun _ => zeroProcess) 0 (p := 0) (e := .loop) (freesNoWaiter_of_run hs (by simp [eventUsers]))
    ⟨Or.inl hctl, ⟨0, 0⟩, hcurrent, rfl⟩ rfl hblocks hwaiting hperiod hdelay (fun hinf => absurd hinf (by decide))
    hspared (not_calls_of_os hctlT) (fun _ _ => not_wokenAtPort hportT) hout ⟨Or.inl hctlT', ⟨0, 0⟩, hcurrentT', rfl⟩
  refine ⟨s, s', t, t', r, hs, hblocks, ?_, hout, by exact_mod_cast hdue, hresult⟩
  simp only [Transition.run_cons, hu, hv, hw, ht, Option.bind_some, Transition.run_nil]

/-! ## Calls that succeed -/

/-- Who is off the list before the time-out has been woken. -/
theorem InWait.off {q : WaitList} {k : Context} {timed : Bool} (h : InWait p q k timed s) (hp : Passive p s)
    (hoff : p ∉ s.waitingProcesses q) (htimer : timed = true → (s.proc p).timeCounter ≠ 0) :
    WaitEnded p k timed s := by
  refine ⟨h.context, hp.rests.resolve_left fun hwaiting => hoff (h.listed hwaiting), fun htimed => ?_⟩
  exact ((h.timer htimed).resolve_left (htimer htimed)).resolve_right hoff

/-- If no restart has freed a waiting process: in every run of a partition whose processes communicate, a process
    that has been taken off the list it waits in before its time-out has come is ready until it executes again, and
    its `WAIT_SEMAPHORE`, `WAIT_EVENT`, `READ_BLACKBOARD`, `SEND_BUFFER` or `RECEIVE_BUFFER` then returns
    `NO_ERROR`, whatever the others do in between and however late it executes. -/
theorem woken_calls_succeed (period identifier : Int) (conf : PartitionConf) (maxErrors : Nat) (krnl : Krnl)
    (memory : Nat → Process) (lastTick : Nat) {es es₁ es₂ : List Action} {s₁ u t : Pcb} {service : Service}
    {timeOut : Int} {q : WaitList}
    (hrun : Transition.GuardedRun Pcb.step FreesNoWaiter
      (partitionInit period identifier conf maxErrors krnl memory lastTick).startPartitionOs es s)
    (hcalls : Calls s p) (htimeOut : timeOut? service = some timeOut) (hservice : Communicates (.call service))
    (hq : Blocks s service q) (hblocks : s.stepOutcome (.call service) = some (s₁, none))
    (hwaiting : (s₁.proc p).processState = .waiting)
    (hbefore : Transition.GuardedRun Pcb.step (CommunicateBesides p) s₁ es₁ u) (hidle : ¬ Calls u p)
    (hoff : p ∉ u.waitingProcesses q) (htimer : timeOut = infiniteTimeValue ∨ (u.proc p).timeCounter ≠ 0)
    (hafter : Transition.GuardedRun Pcb.step (CommunicateBesides p) u es₂ t) (hidle' : ¬ Calls t p) :
    (t.proc p).processState = .ready ∧ ∀ e t' r, Communicates e → t.stepOutcome e = some (t', r) → Calls t' p →
      ∃ result, r = some result ∧ result.returnCode = .noError := by
  obtain ⟨hsound, hqueues⟩ := queues_of_run period identifier conf maxErrors krnl memory lastTick hrun.run_eq
  have hexec : s.exec service = (s₁, none) := by
    rw [call_outcome hcalls.1] at hblocks
    exact Option.some.inj hblocks
  have hsound₁ : Sound s₁ := hsound.step (e := .call service) (Option.map_eq_some_iff.mpr ⟨_, hblocks, rfl⟩)
  have hbegins : BeginsWait p service timeOut s s₁ := by
    obtain ⟨-, c, hc, rfl⟩ := id hcalls
    exact beginsWait_of_call htimeOut hc (hcalls.active hsound).1 hexec hwaiting
  obtain ⟨hp, hcontext, hin⟩ := (hbegins.begun hsound hqueues hcalls).inWait hbegins.valid hq
  have hcancel : cancelsTimer q = true := by
    cases service with
    | readBlackboard | waitSemaphore | waitEvent | sendBuffer | receiveBuffer =>
        obtain ⟨-, i, -, -, rfl⟩ := hq
        rfl
    | acquireMutex => cases hservice
    | _ => cases htimeOut
  obtain ⟨hsoundU, hpU, hinU, -⟩ := hp.run (K := fun _ => True) hsound₁ hin trivial (inWait_keeps p hcancel)
    (fun _ _ h => h) (fun _ _ _ _ _ _ _ => trivial)
    (fun v o r _ hJ hresumes => hresumes.executes (hJ.context ▸ hcontext)) hbefore hidle
  have hended := hinU.off hpU hoff fun htimed => htimer.resolve_left (of_decide_eq_true htimed)
  obtain ⟨hready, hreturns⟩ := hpU.returns hsoundU hended
    (fun v o r hresumes hk => hresumes.executes (hk ▸ hcontext)) hafter hidle'
  refine ⟨hready, fun e t' r hcomm hreturn hexecutes => ?_⟩
  obtain ⟨v, hcame, -, -, hresumes⟩ := hreturns e t' r hcomm hreturn hexecutes
  refine hresumes.succeeded (hcame.context ▸ hcontext) fun htimed hzero => ?_
  rw [hcame.timer htimed] at hzero
  exact absurd hzero (by decide)

/-- Two processes of a partition with a buffer. -/
def bufferUsers : List Action :=
  [.loop, .call (.createBuffer "M".toList 8 2 0), .call (.createProcess (aperiodicProcess "A".toList 50)),
    .call (.createProcess (aperiodicProcess "B".toList 40)), .call (.start 1), .call (.start 2),
    .call (.setPartitionMode 3), .loop]

/-- Process 0 waits for a message, process 1 sends one, and time passes beyond the time-out. -/
theorem woken_calls_succeed_send : ∃ s s₁ t t' r,
    Transition.run Pcb.step (defaultPartition 1) bufferUsers = some s
      ∧ s.stepOutcome (.call (.receiveBuffer 1 1000 fun _ => 0)) = some (s₁, none)
      ∧ Transition.run Pcb.step s₁ [.loop, .call (.sendBuffer 1 (fun _ => 7) 4 0), clockAt 5000 9] = some t
      ∧ t.stepOutcome .loop = some (t', r) ∧ (t.proc 0).processState = .ready
      ∧ ∃ result, r = some result ∧ result.returnCode = .noError := by
  have hcall : ((Transition.run Pcb.step (defaultPartition 1) bufferUsers).bind fun s =>
      (s.stepOutcome (.call (.receiveBuffer 1 1000 fun _ => 0))).map fun o =>
        (s.ctl, s.processCurrent, o.2.isNone, o.1.ctl, decide ((o.1.proc 0).processState = .waiting)))
      = some (.process, some ⟨0, 0⟩, true, .partitionOs, true) := by decide
  have hempty : ((Transition.run Pcb.step (defaultPartition 1) bufferUsers).map fun s =>
      (s.findBufferById 1, decide ((s.res.buffers 0).nbMessage ≤ 0))) = some (some 0, true) := by decide
  have hsend : ((Transition.run Pcb.step (defaultPartition 1)
      (bufferUsers ++ [.call (.receiveBuffer 1 1000 fun _ => 0)])).bind fun s₁ => (s₁.step .loop).bind fun v =>
        (v.step (.call (.sendBuffer 1 (fun _ => 7) 4 0))).map fun u =>
          (v.processCurrent, u.ctl, u.waitingProcesses (.bufferReaders 0), decide ((u.proc 0).timeCounter ≠ 0)))
      = some (some ⟨1, 1⟩, .partitionOs, [], true) := by decide
  have hreturn : ((Transition.run Pcb.step (defaultPartition 1) (bufferUsers ++
      [.call (.receiveBuffer 1 1000 fun _ => 0), .loop, .call (.sendBuffer 1 (fun _ => 7) 4 0)])).bind fun u =>
        (u.step (clockAt 5000 9)).bind fun t => (t.stepOutcome .loop).map fun o =>
          (t.ctl, o.1.ctl, o.1.processCurrent)) = some (.partitionOs, .process, some ⟨0, 0⟩) := by decide
  obtain ⟨s, hs, hcall⟩ := Option.bind_eq_some_iff.mp hcall
  obtain ⟨⟨s₁, o⟩, hblocks, hfields⟩ := Option.map_eq_some_iff.mp hcall
  simp only [Prod.mk.injEq, Option.isNone_iff_eq_none, decide_eq_true_eq] at hfields
  obtain ⟨hctl, hcurrent, rfl, hctl₁, hwaiting⟩ := hfields
  have hstep : s.step (.call (.receiveBuffer 1 1000 fun _ => 0)) = some s₁ :=
    Option.map_eq_some_iff.mpr ⟨_, hblocks, rfl⟩
  simp only [Transition.run_append, hs, Option.bind_some, Transition.run_cons, Transition.run_nil, hstep,
    Option.map_some, Option.some.injEq, Prod.mk.injEq, decide_eq_true_eq] at hempty hsend hreturn
  obtain ⟨hfind, hzero⟩ := hempty
  obtain ⟨v, hv, hsend⟩ := Option.bind_eq_some_iff.mp hsend
  obtain ⟨u, hu, hfields⟩ := Option.map_eq_some_iff.mp hsend
  simp only [Prod.mk.injEq, decide_eq_true_eq] at hfields
  obtain ⟨hcurrentV, hctlU, hlist, htimer⟩ := hfields
  simp only [hv, hu, Option.bind_some] at hreturn
  obtain ⟨t, ht, hreturn⟩ := Option.bind_eq_some_iff.mp hreturn
  obtain ⟨⟨t', r⟩, hout, hfields⟩ := Option.map_eq_some_iff.mp hreturn
  simp only [Prod.mk.injEq] at hfields
  obtain ⟨hctlT, hctlT', hcurrentT'⟩ := hfields
  have hservice : Communicates (.call (.receiveBuffer 1 1000 fun _ => 0)) := trivial
  have hreaders : Blocks s (.receiveBuffer 1 1000 fun _ => 0) (.bufferReaders 0) :=
    ⟨by decide, 0, hfind, hzero, rfl⟩
  have hbefore : Transition.GuardedRun Pcb.step (CommunicateBesides 0) s₁
      [.loop, .call (.sendBuffer 1 (fun _ => 7) 4 0)] u :=
    .cons ⟨trivial, not_calls_of_os hctl₁⟩ hv
      (.cons ⟨trivial, not_calls_of_other hcurrentV (by decide)⟩ hu (.nil u))
  have hafter : Transition.GuardedRun Pcb.step (CommunicateBesides 0) u [clockAt 5000 9] t :=
    .cons ⟨trivial, not_calls_of_os hctlU⟩ ht (.nil t)
  obtain ⟨hready, hreturns⟩ := woken_calls_succeed 50 1 defaultPartitionConf 10 defaultKrnl (fun _ => zeroProcess) 0
    (p := 0) (freesNoWaiter_of_run hs (by simp [bufferUsers])) ⟨Or.inl hctl, ⟨0, 0⟩, hcurrent, rfl⟩ rfl hservice
    hreaders hblocks hwaiting hbefore (not_calls_of_os hctlU) (by simp [hlist]) (Or.inr htimer) hafter (not_calls_of_os hctlT)
  refine ⟨s, s₁, t, t', r, hs, hblocks, ?_, hout, hready,
    hreturns .loop t' r trivial hout ⟨Or.inl hctlT', ⟨0, 0⟩, hcurrentT', rfl⟩⟩
  simp only [Transition.run_cons, hv, hu, ht, Option.bind_some, Transition.run_nil]

end Pcb

end UcxArinc
