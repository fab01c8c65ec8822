import UcxArinc.Proofs.Communication

set_option autoImplicit false

/-! # Waiting for events

Nobody waits for an event that is up, `SET_EVENT` wakes whoever waits, and who was woken by it keeps that
wake-up until it executes again, whatever happens to the event in the meantime. -/

namespace UcxArinc

namespace Pcb

variable {s s' : Pcb} {p i : Nat}

/-! ## Nobody waits for an event that is up -/

/-- Nobody waits for an event that is up. -/
def NobodyWaitsUp (s : Pcb) : Prop :=
  ∀ i, (s.res.events i).eventState = .up → s.waitingProcesses (.event i) = []

/-- `SET_EVENT`, by the event it finds. -/
theorem setEvent_eq {eventId : Int} (hi : s.findEventById eventId = some i) : s.setEvent eventId =
    if s.waitingProcesses (.event i) = [] then
      (s.setEventRecord i { s.res.events i with eventState := .up }).ret .noError
    else (s.setEventRecord i { s.res.events i with eventState := .up }).withCurrent fun node =>
      ((s.setEventRecord i { s.res.events i with eventState := .up }).wakeAll (.event i)).yieldToPartition
        node.data .setEvent := by
  unfold setEvent
  rw [hi]
  rfl

theorem createEvent_up {name : Name} (hup : ((s.createEvent name).1.res.events i).eventState = .up) :
    (s.res.events i).eventState = .up := by
  unfold createEvent at hup
  split_ifs at hup
  iterate 3 exact hup
  dsimp only at hup
  rw [freshWaitList_eq] at hup
  change (Function.update s.res.events s.res.eventCount _ i).eventState = .up at hup
  by_cases hnew : i = s.res.eventCount
  · rw [hnew, Function.update_self] at hup
    cases hup
  · rw [Function.update_of_ne hnew] at hup
    exact hup

theorem resetEvent_up {eventId : Int} (hup : ((s.resetEvent eventId).1.res.events i).eventState = .up) :
    (s.res.events i).eventState = .up := by
  unfold resetEvent at hup
  split at hup
  · exact hup
  · next index _ =>
      change (Function.update s.res.events index _ i).eventState = .up at hup
      by_cases hsame : i = index
      · rw [hsame, Function.update_self] at hup
        cases hup
      · rw [Function.update_of_ne hsame] at hup
        exact hup

/-- An event comes up by `SET_EVENT`. -/
theorem event_up_before {e : Action} (hstep : s.step e = some s')
    (hset : ∀ eventId, e ≠ .call (.setEvent eventId)) (hup : (s'.res.events i).eventState = .up) :
    (s.res.events i).eventState = .up := by
  have hevents := congrArg Stores.events (step_stores hstep)
  have hsame : s'.stores.events = s.stores.events → (s.res.events i).eventState = .up := by
    intro heq
    rw [← hup]
    exact congrArg (fun x => (x.1 i).eventState) heq.symm
  cases e with
  | call service =>
      obtain ⟨-, rfl⟩ := call_eq_some hstep
      cases service with
      | setEvent eventId => exact absurd rfl (hset eventId)
      | createEvent name => exact createEvent_up hup
      | resetEvent eventId => exact resetEvent_up hup
      | _ => exact hsame hevents
  | _ => exact hsame hevents

theorem crashed_step {e : Action} (hctl : s.ctl = .crashed) (hstep : s.step e = some s') :
    s'.ctl = .crashed := by
  cases e with
  | kernel =>
      simp only [step, stepOutcome, Option.map_eq_some_iff, Option.ite_none_right_eq_some] at hstep
      obtain ⟨o, ⟨-, ho⟩, rfl⟩ := hstep
      cases Option.some.inj ho
      exact hctl
  | _ => simp [step, stepOutcome, hctl] at hstep

/-- `SET_EVENT` lets nobody wait for an event that is up, unless the partition's entry point sets an event for
    which processes it has freed still wait. -/
theorem NobodyWaitsUp.setEvent (h : NobodyWaitsUp s) (eventId : Int) :
    (s.setEvent eventId).1.ctl = .crashed ∨ NobodyWaitsUp (s.setEvent eventId).1 := by
  cases hfind : s.findEventById eventId with
  | none =>
      right
      unfold Pcb.setEvent
      rw [hfind]
      exact h
  | some index =>
      rw [setEvent_eq hfind]
      generalize hu : s.setEventRecord index { s.res.events index with eventState := .up } = u
      have hlists : u.waitingProcesses = s.waitingProcesses := by rw [← hu]; rfl
      -- the other events are as before
      have hothers : ∀ j ≠ index, (u.res.events j).eventState = .up → s.waitingProcesses (.event j) = [] := by
        intro j hj hup
        refine h j ?_
        rw [← hup, ← hu]
        exact congrArg Event.eventState (Function.update_of_ne hj _ _).symm
      split
      · next hnil =>
          right
          intro j hup
          change u.waitingProcesses (.event j) = []
          rw [hlists]
          by_cases hj : j = index
          · rw [hj]
            exact hnil
          · exact hothers j hj hup
      · unfold withCurrent
        split
        · exact Or.inl rfl
        · right
          intro j hup
          change (u.wakeAll (.event index)).waitingProcesses (.event j) = []
          rw [(wakeAll_spec _ u).1]
          by_cases hj : j = index
          · rw [hj, Function.update_self]
          · rw [Function.update_of_ne fun heq => hj (WaitList.event.inj heq), hlists]
            refine hothers j hj ?_
            have hevents : (u.wakeAll (.event index)).res.events = u.res.events :=
              congrArg (fun x => x.events.1) (wakeAll_stores (.event index) u)
            rw [← hevents]
            exact hup

/-- A step lets nobody wait for an event that is up. -/
theorem NobodyWaitsUp.step {e : Action} (h : NobodyWaitsUp s) (hsound : Sound s)
    (hstep : s.step e = some s') : s'.ctl = .crashed ∨ NobodyWaitsUp s' := by
  by_cases hset : ∃ eventId, e = .call (.setEvent eventId)
  · obtain ⟨eventId, rfl⟩ := hset
    obtain ⟨-, rfl⟩ := call_eq_some hstep
    exact h.setEvent eventId
  · right
    intro j hup
    have hbefore := event_up_before hstep (fun eventId he => hset ⟨eventId, he⟩) hup
    have hmoves : Moves (onlyBlocks fun _ _ q' _ => q' ≠ .event j) s s' := by
      refine step_moves hsound.running (permits_onlyBlocks fun service _ c _ t _ q hblocks _ hq => ?_) hstep
      subst hq
      have hdown : (s.res.events j).eventState = .down := hblocks.awaited
      rw [hdown] at hbefore
      cases hbefore
    have hlist := sublist_of_moves hmoves
    rw [h j hbefore] at hlist
    exact List.sublist_nil.mp hlist

/-! ## `SET_EVENT` wakes everybody -/

/-- Event `i` is up, nobody waits for it, and whoever did is ready; the loop that woke them has ended by itself. -/
structure WakesEveryone (i : Nat) (s s' : Pcb) : Prop where
  up : (s'.res.events i).eventState = .up
  emptied : s'.waitingProcesses (.event i) = []
  uncounted : s'.waitingCount (.event, i) = 0
  woken : ∀ p ∈ s.waitingProcesses (.event i), (s'.proc p).processState = .ready
  ends : ∀ n, (s.waitingProcesses (.event i)).length ≤ n →
    wakeAllAux (.event i) n (s.setEventRecord i { s.res.events i with eventState := .up })
      = (s.setEventRecord i { s.res.events i with eventState := .up }).wakeAll (.event i)

/-- What `SET_EVENT` does to the event, the lists and the records, unless it finds no current process. -/
theorem setEvent_spec {eventId : Int} (hi : s.findEventById eventId = some i)
    (hcur : s.processCurrent.isSome ∨ s.waitingProcesses (.event i) = []) :
    ((s.setEvent eventId).1.res.events i).eventState = .up
      ∧ (s.setEvent eventId).1.waitingProcesses = Function.update s.waitingProcesses (.event i) []
      ∧ (∀ p, (∀ c, s.processCurrent = some c → c.data ≠ p) → (s.setEvent eventId).1.proc p
        = if p ∈ s.waitingProcesses (.event i) then wakeProcess (some .event) true (s.proc p) else s.proc p)
      ∧ ∀ p ∈ s.waitingProcesses (.event i), ((s.setEvent eventId).1.proc p).processState = .ready := by
  rw [setEvent_eq hi]
  generalize hu : s.setEventRecord i { s.res.events i with eventState := .up } = u
  have hup : (u.res.events i).eventState = .up := by
    rw [← hu]
    show (Function.update s.res.events i _ i).eventState = .up
    rw [Function.update_self]
  have hlists : u.waitingProcesses = s.waitingProcesses := by rw [← hu]; rfl
  have hproc : u.proc = s.proc := by rw [← hu]; rfl
  have hcurrent : u.processCurrent = s.processCurrent := by rw [← hu]; rfl
  split
  · next hnil =>
      refine ⟨hup, ?_, fun p _ => ?_, fun p hp => ?_⟩
      · rw [← hnil, Function.update_eq_self]
        exact hlists
      · rw [hnil, if_neg List.not_mem_nil]
        exact congrFun hproc p
      · rw [hnil] at hp
        exact absurd hp List.not_mem_nil
  · next hne =>
      obtain ⟨c, hc⟩ := Option.isSome_iff_exists.mp (hcur.resolve_right hne)
      obtain ⟨hempty, hwoken⟩ := wakeAll_spec (.event i) u
      rw [hlists] at hempty hwoken
      rw [hproc] at hwoken
      unfold withCurrent
      rw [hcurrent, hc]
      dsimp only
      refine ⟨?_, hempty, fun p hp => ?_, fun p hp => ?_⟩
      · have hevents : (u.wakeAll (.event i)).res.events = u.res.events :=
          congrArg (fun x => x.events.1) (wakeAll_stores (.event i) u)
        rw [← hup, ← hevents]
        rfl
      · exact (modProc_proc_of_ne (hp c rfl).symm (u.wakeAll (.event i))
          fun x => { x with context := .setEvent }).trans (hwoken p)
      · obtain ⟨k, hk⟩ := yield_proc (u.wakeAll (.event i)) c.data .setEvent p
        rw [hk, hwoken, if_pos hp]
        rfl

theorem setEvent_wakesEveryone {eventId : Int} (hi : s.findEventById eventId = some i)
    (hcur : s.processCurrent.isSome ∨ s.waitingProcesses (.event i) = [])
    (hcounted : Counted (s.setEvent eventId).1) : WakesEveryone i s (s.setEvent eventId).1 := by
  obtain ⟨hup, hlists, -, hready⟩ := setEvent_spec hi hcur
  have hempty : (s.setEvent eventId).1.waitingProcesses (.event i) = [] := by
    rw [hlists, Function.update_self]
  refine ⟨hup, hempty, ?_, hready, fun n hn => wakeAllAux_of_le hn⟩
  rw [hcounted]
  simp [waitersIn, listsOf, hempty]

/-! ## Waiting for an event -/

/-- `WAIT_EVENT` that does not return makes its caller wait. -/
theorem waitEvent_blocks {eventId timeOut : Int} {c : Node} (hi : s.findEventById eventId = some i)
    (hc : s.processCurrent = some c) (hwaits : (s.waitEvent eventId timeOut).2 = none) :
    s.cannotBlock c.data = false ∧ ∃ discipline timer,
      (timeOut ≠ infiniteTimeValue → ∃ t, timer = some t ∧ t ≠ 0)
        ∧ s.waitEvent eventId timeOut
          = (s.waitOn c.data (.event i) true discipline timer).yieldToPartition c.data
            (.waitEvent (decide (timeOut ≠ infiniteTimeValue))) := by
  unfold waitEvent withCurrent at hwaits ⊢
  rw [hi, hc] at hwaits ⊢
  dsimp only at hwaits ⊢
  split_ifs at hwaits ⊢ with hinvalid hup hzero hcannot hinf
  iterate 4 cases hwaits
  · exact ⟨by simpa using hcannot, .fifo, none, fun hne => absurd hinf hne, by rw [hinf]; rfl⟩
  · have hpositive := fromNow_pos (s := s) (timeOut_cases hinvalid hzero) hinf
    exact ⟨by simpa using hcannot, .priority, _, fun _ => ⟨_, rfl, hpositive.ne'⟩, by rw [decide_eq_true hinf]⟩

/-- `WAIT_EVENT` comes to its end when its process is resumed. -/
theorem Resumes.waitEvent {t u : Pcb} {r : Option Result} {timed : Bool} (h : Resumes p t (u, r))
    (hcontext : (t.proc p).context = .waitEvent timed) : Calls u p
      ∧ r = some { returnCode := if timed = true ∧ (t.proc p).timeCounter = 0 then .timedOut else .noError } := by
  obtain ⟨hready, hrecord, ⟨c, hc, hd⟩, hout⟩ := h
  have hcontext' : (({ t.processSchedule with ctl := .process } : Pcb).proc p).context = .waitEvent timed := by
    show (t.processSchedule.proc p).context = _
    rw [hrecord]
    exact hcontext
  have htimer : (({ t.processSchedule with ctl := .process } : Pcb).proc p).timeCounter
      = (t.proc p).timeCounter := by
    show (t.processSchedule.proc p).timeCounter = _
    rw [hrecord]
  unfold resumeContext at hout
  rw [hcontext'] at hout
  dsimp only at hout
  unfold finishWait at hout
  rw [htimer] at hout
  split at hout
  · next htimedOut =>
      obtain ⟨rfl, rfl⟩ := Prod.mk.inj hout
      exact ⟨⟨Or.inl rfl, c, hc, hd⟩, by rw [if_pos htimedOut]⟩
  · next hcame =>
      obtain ⟨rfl, rfl⟩ := Prod.mk.inj hout
      exact ⟨⟨Or.inl rfl, c, hc, hd⟩, by rw [if_neg hcame]⟩

/-! ## Runs -/

theorem nobodyWaitsUp_of_run (period identifier : Int) (conf : PartitionConf) (maxErrors : Nat) (krnl : Krnl)
    (memory : Nat → Process) (lastTick : Nat) {es : List Action}
    (hrun : Transition.run Pcb.step
      (partitionInit period identifier conf maxErrors krnl memory lastTick).startPartitionOs es = some s)
    (hctl : s.ctl ≠ .crashed) : NobodyWaitsUp s := by
  have hinit : NobodyWaitsUp
      (partitionInit period identifier conf maxErrors krnl memory lastTick).startPartitionOs := by
    intro i hup
    have hevents := congrArg (fun x => (x.events.1 i).eventState)
      (startPartitionOs_stores (partitionInit period identifier conf maxErrors krnl memory lastTick))
    have hdown : ((partitionInit period identifier conf maxErrors krnl memory
        lastTick).startPartitionOs.res.events i).eventState = .down := hevents
    rw [hdown] at hup
    cases hup
  have hkept := Transition.run_invariant (I := fun s => Sound s ∧ (s.ctl = .crashed ∨ NobodyWaitsUp s)) hrun ?_
    ⟨sound_startPartitionOs period identifier conf maxErrors krnl memory lastTick, Or.inr hinit⟩
  · exact hkept.2.resolve_left hctl
  · rintro t e t' ⟨ht, hcase⟩ hstep
    refine ⟨ht.step hstep, ?_⟩
    rcases hcase with hcrashed | hnobody
    · exact Or.inl (crashed_step hcrashed hstep)
    · exact hnobody.step ht hstep

/-- Process `p` has called `WAIT_EVENT` and waits. -/
theorem awaitsEvent_of_call (hsound : Sound s) (hqueues : Queues s) (hcalls : Calls s p) {eventId timeOut : Int}
    (hi : s.findEventById eventId = some i)
    (hwaits : s.stepOutcome (.call (.waitEvent eventId timeOut)) = some (s', none)) :
    Passive p s' ∧ InWait p (.event i) (.waitEvent (decide (timeOut ≠ infiniteTimeValue)))
      (decide (timeOut ≠ infiniteTimeValue)) s' := by
  have hexec : s.waitEvent eventId timeOut = (s', none) := by
    rw [call_outcome hcalls.1] at hwaits
    exact Option.some.inj hwaits
  obtain ⟨-, c, hc, rfl⟩ := id hcalls
  obtain ⟨hcan, discipline, timer, htimer, heq⟩ := waitEvent_blocks hi hc (by rw [hexec])
  rw [heq] at hexec
  obtain rfl : ((s.waitOn c.data (.event i) true discipline timer).yieldToPartition c.data
      (.waitEvent (decide (timeOut ≠ infiniteTimeValue)))).1 = s' := by rw [hexec]
  exact ⟨blocked_passive hsound hqueues hcalls hcan _ _ _ _ _,
    blocked_inWait _ _ _ _ _ _ _ fun htimed => htimer (of_decide_eq_true htimed)⟩

/-- `SET_EVENT` ends the wait of a process whose time-out has not expired. -/
theorem InWait.set {timed : Bool} {setId : Int} (h : InWait p (.event i) (.waitEvent timed) timed s) (hp : Passive p s)
    (hsound : Sound s) (hcurrent : HasCurrent s) (hi : s.findEventById setId = some i)
    (hstep : s.step (.call (.setEvent setId)) = some s') (htimer : timed = true → (s.proc p).timeCounter ≠ 0) :
    Passive p s' ∧ WaitEnded p (.waitEvent timed) timed s' := by
  refine h.wakened (e := .call (.setEvent setId)) hp hsound rfl trivial Action.noConfusion hstep htimer ?_
  obtain ⟨hrun, rfl⟩ := call_eq_some hstep
  exact (setEvent_spec hi (Or.inl (hcurrent (hp.process hsound hrun)))).2.2.1 p fun c hc hd =>
    hp.idle ⟨hrun, c, hc, hd⟩

/-- In every state a partition reaches, nobody waits for an event that is up; `SET_EVENT` by a process wakes
    everybody who waits; and a process that waits and has not timed out when the event is set is ready until it
    executes again, in a `WAIT_EVENT` that returns `NO_ERROR`, whatever is done to the event in between. -/
theorem setEvent_wakes_all_waiters (period identifier : Int) (conf : PartitionConf) (maxErrors : Nat)
    (krnl : Krnl) (memory : Nat → Process) (lastTick : Nat) {es : List Action}
    (hrun : Transition.run Pcb.step
      (partitionInit period identifier conf maxErrors krnl memory lastTick).startPartitionOs es = some s) :
    (s.ctl ≠ .crashed → ∀ i, (s.res.events i).eventState = .up → s.waitingProcesses (.event i) = [])
      ∧ (∀ eventId i s', s.ctl = .process → s.findEventById eventId = some i →
        s.step (.call (.setEvent eventId)) = some s' → WakesEveryone i s s')
      ∧ ∀ p eventId timeOut i s₁ es₁ u setId u₁ es₂ t, Calls s p → s.findEventById eventId = some i →
        s.stepOutcome (.call (.waitEvent eventId timeOut)) = some (s₁, none) →
        Transition.GuardedRun Pcb.step (CommunicateBesides p) s₁ es₁ u → ¬ Calls u p →
        u.findEventById setId = some i → u.step (.call (.setEvent setId)) = some u₁ →
        (timeOut = infiniteTimeValue ∨ (u.proc p).timeCounter ≠ 0) →
        Transition.GuardedRun Pcb.step (CommunicateBesides p) u₁ es₂ t → ¬ Calls t p →
        (t.proc p).processState = .ready ∧ ∀ e t' r, Communicates e → t.stepOutcome e = some (t', r) →
          Calls t' p → r = some { returnCode := .noError } := by
  obtain ⟨hsound, hqueues⟩ := queues_of_run period identifier conf maxErrors krnl memory lastTick hrun
  have hcurrent := hasCurrent_of_run period identifier conf maxErrors krnl memory lastTick hrun
  refine ⟨nobodyWaitsUp_of_run period identifier conf maxErrors krnl memory lastTick hrun, ?_, ?_⟩
  · intro eventId i s' hctl hi hstep
    have hreached : Transition.run Pcb.step
        (partitionInit period identifier conf maxErrors krnl memory lastTick).startPartitionOs
        (es ++ [.call (.setEvent eventId)]) = some s' := by
      rw [Transition.run_append, hrun, Option.bind_some, Transition.run_cons, hstep]
      rfl
    have hcounted := (queues_of_run period identifier conf maxErrors krnl memory lastTick hreached).2.counted
    obtain ⟨-, rfl⟩ := call_eq_some hstep
    exact setEvent_wakesEveryone hi (Or.inl (hcurrent hctl)) hcounted
  · intro p eventId timeOut i s₁ es₁ u setId u₁ es₂ t hcalls hi hwaits hbefore hidle hset hstep htimer hafter hidle'
    have hstep₁ : s.step (.call (.waitEvent eventId timeOut)) = some s₁ :=
      Option.map_eq_some_iff.mpr ⟨_, hwaits, rfl⟩
    have hreached : Transition.run Pcb.step
        (partitionInit period identifier conf maxErrors krnl memory lastTick).startPartitionOs
        (es ++ .call (.waitEvent eventId timeOut) :: es₁) = some u := by
      rw [Transition.run_append, hrun, Option.bind_some, Transition.run_cons, hstep₁, Option.bind_some]
      exact hbefore.run_eq
    obtain ⟨hp₁, hawaits⟩ := awaitsEvent_of_call hsound hqueues hcalls hi hwaits
    obtain ⟨hsoundU, hpU, hawaitsU, -⟩ := hp₁.run (K := fun _ => True) (hsound.step hstep₁) hawaits trivial
      (inWait_keeps p rfl) (fun _ _ h => h) (fun _ _ _ _ _ _ _ => trivial)
      (fun _ _ _ _ hJ hresumes => (hresumes.waitEvent hJ.context).1) hbefore hidle
    obtain ⟨hpU₁, hcame⟩ := hawaitsU.set hpU hsoundU
      (hasCurrent_of_run period identifier conf maxErrors krnl memory lastTick hreached) hset hstep
      fun htimed => htimer.resolve_left (of_decide_eq_true htimed)
    obtain ⟨hready, hreturns⟩ := hpU₁.returns (hsoundU.step hstep) hcame
      (fun _ _ _ hresumes hcontext => (hresumes.waitEvent hcontext).1) hafter hidle'
    refine ⟨hready, fun e t' r hcomm hreturn hexecutes => ?_⟩
    obtain ⟨v, hcameV, -, -, hresumes⟩ := hreturns e t' r hcomm hreturn hexecutes
    rw [(hresumes.waitEvent hcameV.context).2, if_neg]
    rintro ⟨htimed, hzero⟩
    rw [hcameV.timer htimed] at hzero
    exact absurd hzero (by decide)

/-- Process 0 waits for an event with a time-out, and process 1 executes. -/
def timedWaiter : List Action :=
  [.loop, .call (.createEvent "E".toList), .call (.createProcess (aperiodicProcess "A".toList 50)),
    .call (.createProcess (aperiodicProcess "B".toList 40)), .call (.start 1), .call (.start 2),
    .call (.setPartitionMode 3), .loop, .call (.waitEvent 1 1000), .loop]

/-- Process 1 waits too; process 0 times out, sets the event, executes again, resets it and waits again. -/
theorem setEvent_wakes_all_waiters_reset :
    ∃ s s₁ s₂ u u₁ u₂ u₃ t t' r, Transition.run Pcb.step (defaultPartition 1) timedWaiter = some s
      ∧ s.stepOutcome (.call (.waitEvent 1 infiniteTimeValue)) = some (s₁, none)
      ∧ s₁.step (clockAt 1000 100) = some s₂ ∧ s₂.step .loop = some u
      ∧ u.step (.call (.setEvent 1)) = some u₁ ∧ u₁.step .loop = some u₂
      ∧ u₂.step (.call (.resetEvent 1)) = some u₃ ∧ u₃.step (.call (.waitEvent 1 infiniteTimeValue)) = some t
      ∧ t.stepOutcome .loop = some (t', r)
      ∧ u.waitingProcesses (.event 0) = [0, 1] ∧ WakesEveryone 0 u u₁
      ∧ (t.res.events 0).eventState = .down ∧ (t.proc 1).processState = .ready
      ∧ r = some { returnCode := .noError } := by
  have hfirst : ((Transition.run Pcb.step (defaultPartition 1) timedWaiter).bind fun s =>
      (s.stepOutcome (.call (.waitEvent 1 infiniteTimeValue))).map fun o =>
        (s.ctl, s.processCurrent, s.findEventById 1, o.2.isNone, o.1.ctl))
      = some (.process, some ⟨1, 1⟩, some 0, true, .partitionOs) := by decide
  have hset : ((Transition.run Pcb.step (defaultPartition 1) (timedWaiter ++
      [.call (.waitEvent 1 infiniteTimeValue)])).bind fun s₁ => (s₁.step (clockAt 1000 100)).bind fun s₂ =>
        (s₂.step .loop).bind fun u => (u.step (.call (.setEvent 1))).map fun u₁ =>
          (s₂.ctl, u.ctl, u.processCurrent, u.findEventById 1, u₁.ctl))
      = some (.partitionOs, .process, some ⟨0, 0⟩, some 0, .partitionOs) := by decide
  have hlist : ((Transition.run Pcb.step (defaultPartition 1) (timedWaiter ++
      [.call (.waitEvent 1 infiniteTimeValue), clockAt 1000 100, .loop])).map fun u =>
        u.waitingProcesses (.event 0)) = some [0, 1] := by decide
  have hreset : ((Transition.run Pcb.step (defaultPartition 1) (timedWaiter ++
      [.call (.waitEvent 1 infiniteTimeValue), clockAt 1000 100, .loop, .call (.setEvent 1)])).bind fun u₁ =>
        (u₁.step .loop).bind fun u₂ => (u₂.step (.call (.resetEvent 1))).bind fun u₃ =>
          (u₃.step (.call (.waitEvent 1 infiniteTimeValue))).bind fun t => (t.stepOutcome .loop).map fun o =>
            (u₂.processCurrent, u₃.processCurrent, t.ctl, o.1.ctl, o.1.processCurrent))
      = some (some ⟨0, 0⟩, some ⟨0, 0⟩, .partitionOs, .process, some ⟨1, 1⟩) := by decide
  have hdown : ((Transition.run Pcb.step (defaultPartition 1) (timedWaiter ++
      [.call (.waitEvent 1 infiniteTimeValue), clockAt 1000 100, .loop, .call (.setEvent 1), .loop,
        .call (.resetEvent 1), .call (.waitEvent 1 infiniteTimeValue)])).map fun t =>
          decide ((t.res.events 0).eventState = .down)) = some true := by decide
  obtain ⟨s, hs, hfirst⟩ := Option.bind_eq_some_iff.mp hfirst
  obtain ⟨⟨s₁, o⟩, hwaits, hfields⟩ := Option.map_eq_some_iff.mp hfirst
  simp only [Prod.mk.injEq, Option.isNone_iff_eq_none] at hfields
  obtain ⟨hctl, hcurrent, hfind, rfl, hctl₁⟩ := hfields
  have hstep₁ : s.step (.call (.waitEvent 1 infiniteTimeValue)) = some s₁ :=
    Option.map_eq_some_iff.mpr ⟨_, hwaits, rfl⟩
  simp only [Transition.run_append, hs, Option.bind_some, Transition.run_cons, Transition.run_nil, hstep₁]
    at hset hlist hreset hdown
  obtain ⟨s₂, hs₂, hset⟩ := Option.bind_eq_some_iff.mp hset
  obtain ⟨u, hu, hset⟩ := Option.bind_eq_some_iff.mp hset
  obtain ⟨u₁, hu₁, hfields⟩ := Option.map_eq_some_iff.mp hset
  simp only [Prod.mk.injEq] at hfields
  obtain ⟨hctl₂, hctlU, hcurrentU, hfindU, hctlU₁⟩ := hfields
  simp only [hs₂, hu, hu₁, Option.bind_some, Option.map_some, Option.some.injEq] at hlist hreset hdown
  obtain ⟨u₂, hu₂, hreset⟩ := Option.bind_eq_some_iff.mp hreset
  obtain ⟨u₃, hu₃, hreset⟩ := Option.bind_eq_some_iff.mp hreset
  obtain ⟨t, ht, hreset⟩ := Option.bind_eq_some_iff.mp hreset
  obtain ⟨⟨t', r⟩, hreturn, hfields⟩ := Option.map_eq_some_iff.mp hreset
  simp only [Prod.mk.injEq] at hfields
  obtain ⟨hcurrent₂, hcurrent₃, hctlT, hctlT', hcurrentT'⟩ := hfields
  simp only [hu₂, hu₃, ht, Option.bind_some, Option.map_some, Option.some.injEq, decide_eq_true_eq] at hdown
  have hcalls : Calls s 1 := ⟨Or.inl hctl, ⟨1, 1⟩, hcurrent, rfl⟩
  have hidleU : ¬ Calls u 1 := not_calls_of_other hcurrentU (by decide)
  have hbefore : Transition.GuardedRun Pcb.step (CommunicateBesides 1) s₁ [clockAt 1000 100, .loop] u :=
    .cons ⟨trivial, not_calls_of_os hctl₁⟩ hs₂ (.cons ⟨trivial, not_calls_of_os hctl₂⟩ hu (.nil u))
  have hafter : Transition.GuardedRun Pcb.step (CommunicateBesides 1) u₁
      [.loop, .call (.resetEvent 1), .call (.waitEvent 1 infiniteTimeValue)] t :=
    .cons ⟨trivial, not_calls_of_os hctlU₁⟩ hu₂
      (.cons ⟨trivial, not_calls_of_other hcurrent₂ (by decide)⟩ hu₃
        (.cons ⟨trivial, not_calls_of_other hcurrent₃ (by decide)⟩ ht (.nil t)))
  have hreached : Transition.run Pcb.step (defaultPartition 1)
      (timedWaiter ++ [.call (.waitEvent 1 infiniteTimeValue), clockAt 1000 100, .loop]) = some u := by
    simp only [Transition.run_append, hs, hstep₁, hs₂, hu, Option.bind_some, Transition.run_cons,
      Transition.run_nil]
  obtain ⟨-, hwakes, -⟩ := setEvent_wakes_all_waiters 50 1 defaultPartitionConf 10 defaultKrnl
    (fun _ => zeroProcess) 0 hreached
  obtain ⟨-, -, hlost⟩ := setEvent_wakes_all_waiters 50 1 defaultPartitionConf 10 defaultKrnl
    (fun _ => zeroProcess) 0 hs
  obtain ⟨hready, hends⟩ := hlost 1 1 infiniteTimeValue 0 s₁ _ u 1 u₁ _ t hcalls hfind hwaits hbefore
    hidleU hfindU hu₁ (Or.inl rfl) hafter (not_calls_of_os hctlT)
  exact ⟨s, s₁, s₂, u, u₁, u₂, u₃, t, t', r, hs, hwaits, hs₂, hu, hu₁, hu₂, hu₃, ht, hreturn, hlist,
    hwakes 1 0 u₁ hctlU hfindU hu₁, hdown, hready,
    hends .loop t' r trivial hreturn ⟨Or.inl hctlT', ⟨1, 1⟩, hcurrentT', rfl⟩⟩

end Pcb

end UcxArinc
