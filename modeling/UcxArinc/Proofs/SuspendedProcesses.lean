import UcxArinc.Proofs.Suspension

set_option autoImplicit false

/-! # Suspended processes

The places that wake a process write `READY` without a look at `is_suspended`, so a suspended process stays
`WAITING` only as long as nobody wakes it. `RespectsSuspension` says, of one step, that none of them finds
a suspended process; along such steps a suspension ends by `RESUME`, by `STOP` or by the time-out of the
`SUSPEND_SELF` that began it. -/

namespace UcxArinc

namespace Pcb

variable {A : Permit} {s s' : Pcb} {p : Nat}

/-! ## Steps that wake no suspended process -/

/-- No time-out of the process is running. -/
def Unarmed (x : Process) : Prop := x.timeCounter = 0 ∨ x.timeCounter = infiniteTimeValue

/-- What a new tick wakes is not suspended; only `SUSPEND_SELF` may time out while it is. -/
structure RespectsTick (s : Pcb) : Prop where
  release : ∀ p, (∃ n ∈ s.processes, n.data = p) → (s.proc p).isSuspended = true →
    ¬ ReleaseDue s.krnl.uptime (s.proc p)
  expire : ∀ p, (∃ n ∈ s.processes, n.data = p) → (s.proc p).isSuspended = true →
    Due s.krnl.uptime (s.proc p) → (s.proc p).context = .suspendSelf
  ports : ∀ p, s.WokenAtPort p → (s.ticked.proc p).isSuspended = false

/-- No linked process with the identifier of the caller is suspended. -/
def RespectsCaller (s : Pcb) : Prop :=
  ∀ c, s.processCurrent = some c → ∀ node ∈ s.processes,
    (s.proc node.data).processId = (s.proc c.data).processId → (s.proc node.data).isSuspended = false

/-- The step suspends neither the error handler nor a caller whose time-out runs, and readies no suspended
    process. -/
def RespectsSuspension (s : Pcb) : Action → Prop
  | .call (.suspend processId) => ∀ node, s.isProcessIdExisted processId = some node →
      (s.proc node.data).attributes.period = infiniteTimeValue →
        (s.proc node.data).isSuspended = false → (s.proc node.data).processState ≠ .dormant →
          s.errorHandlerProcess ≠ some node.data
  | .call (.suspendSelf timeOut) => timeOut = infiniteTimeValue →
      ∀ c, s.processCurrent = some c → Unarmed (s.proc c.data)
  | .call (.raiseApplicationError _ _ _) | .fault _ _ _ => s.RespectsCaller
  | .call service => ∀ p, Wakes s service p → (s.proc p).isSuspended = false
  | .loop => ¬ Starting s → s.krnl.ticks ≠ s.lastTick → s.RespectsTick
  | .mainReturn | .kernel _ _ _ _ _ _ => True

/-- The action suspends a process. -/
def Suspends : Action → Prop
  | .call (.suspend _) | .call (.suspendSelf _) => True
  | _ => False

/-! ## The time-out of a process that resumes in `SUSPEND_SELF` -/

/-- Process `p`, if it resumes in `SUSPEND_SELF`, has no time-out running, unless it is excused: then it
    may be suspended. -/
def IdleTimer (excused : Prop) (p : Nat) (s : Pcb) : Prop :=
  (s.proc p).context = .suspendSelf → excused ∧ (s.proc p).isSuspended = true ∨ Unarmed (s.proc p)

/-- Process `p`, unless excused, calls `SUSPEND_SELF` only without a time-out, its own not running. -/
def idleSleeper (excused : Prop) (p : Nat) : Permit := { Permit.all with
  sleep := fun s p' k timer =>
    p' = p → k = .suspendSelf → excused ∨ timer = none ∧ Unarmed (s.proc p) }

theorem unarmed_wakeProcess {k : Option WaitKind} {cancel : Bool} {x : Process} (h : Unarmed x) :
    Unarmed (wakeProcess k cancel x) := by
  unfold Unarmed wakeProcess
  dsimp only
  split
  · exact Or.inr rfl
  · exact h

theorem IdleTimer.move {excused : Prop} (h : p < s.nextProc → IdleTimer excused p s)
    (hm : Move (idleSleeper excused p) s s') (hp : p < s'.nextProc) : IdleTimer excused p s' := by
  rcases hm.allocated hp with hlt | hy
  swap
  · exact fun _ => Or.inr (Or.inl hy.timeCounter)
  have hchange := hm.change p
  have hidle := h hlt
  unfold IdleTimer at hidle ⊢
  generalize hx : s.proc p = x at hchange hidle
  generalize s'.proc p = y at hchange
  cases hchange with
  | touch h =>
      unfold Unarmed
      rw [h.context, h.isSuspended, h.timeCounter]
      exact hidle
  | block q linked timer k hcalls hkind hmutex hown hA => exact fun hk => absurd hk hown
  | blockOnErrors error k hcalls hown hA => exact fun hk => absurd hk hown
  | yield k hcalls hown => exact fun hk => absurd hk hown
  | sleep k timer hcalls hf hA =>
      intro hk
      have hk' := hf.context.symm.trans hk
      rcases hA rfl hk' with hexcused | ⟨rfl, hunarmed⟩
      · exact Or.inl ⟨hexcused, hf.suspends hk'⟩
      · unfold Unarmed
        rw [hf.timeCounter, ← hx]
        exact Or.inr hunarmed
  | wake q cancel rest hq hlist hA =>
      exact fun hk => (hidle hk).imp_right unarmed_wakeProcess
  | grant index mutexId rest hidx hstate hlist hA =>
      exact fun hk => (hidle hk).imp_right (unarmed_wakeProcess (k := some .mutex))
  | suspend hlinked hother hmutex howns hstate hA =>
      exact fun hk => (hidle hk).imp_left fun h => ⟨h.1, rfl⟩
  | resume hlinked hstate hwas hA =>
      intro hk
      unfold Unarmed resumed
      dsimp only
      cases hsuspended : x.isSuspended with
      | true => exact Or.inr (Or.inl rfl)
      | false =>
          rcases hidle hk with ⟨-, hwas⟩ | hunarmed
          · rw [hsuspended] at hwas
            cases hwas
          · exact Or.inr hunarmed
  | stop | stopSelf | timerOff => exact fun _ => Or.inr (Or.inl rfl)
  | start delayed hlinked hstate hf hA =>
      intro hk
      rw [hf.context] at hk
      cases hk
  | readyHandler hp => exact fun hk => nomatch hk
  | initHandler hp => exact fun hk => nomatch hk
  | schedule hctl h =>
      obtain ⟨st, rfl, -⟩ := h
      exact hidle
  | release hctl hlinked hA =>
      unfold checkAndReleasePeriodicWaitingProcesses
      split_ifs <;> exact hidle
  | timeOuts hctl hlinked hA =>
      unfold checkTimeouts
      split
      · exact fun _ => Or.inr (Or.inl rfl)
      · exact hidle
  | spawn hp hrun hmode hy hA => exact absurd hp hlt.ne
  | toNormal hrun hmode hlinked h hA =>
      obtain ⟨release, deadline, rfl⟩ := h
      exact hidle
  | _ => exact hidle

/-! ## Suspended processes wait -/

/-- What the steps that respect suspension may do, when a step (or its part) begins in state `b`:
    `suspends` is whether it suspends a process, and `ends` what must hold for it to end the suspension of
    process `p`. -/
def respecting (b : Pcb) (suspends ends : Prop) (p : Nat) : Permit := { Permit.all with
  wake := fun p' => ¬ suspends ∧ (b.proc p').isSuspended = false
  grant := fun p' => ¬ suspends ∧ (b.proc p').isSuspended = false
  sleep := fun s p' k _ => k = .suspendSelf → suspends ∧ s.errorHandlerProcess ≠ some p'
  suspend := fun s p' => suspends ∧ s.errorHandlerProcess ≠ some p'
  resume := fun _ p' => p' = p → ends
  stop := fun _ p' => p' = p → ends
  expire := fun s p' => (s.proc p').isSuspended = true → p' = p → ends
  ignore := fun s p' => (s.proc p').isSuspended = false }

/-- Process `p` waits if it is suspended, and is not the error handler. -/
structure Rests (p : Nat) (s : Pcb) : Prop where
  waits : (s.proc p).isSuspended = true → (s.proc p).processState = .waiting
  notHandler : (s.proc p).isSuspended = true → s.errorHandlerProcess ≠ some p

/-- The suspended processes are those of state `b`, or the step suspends. -/
structure RestsSince (b : Pcb) (suspends : Prop) (p : Nat) (s : Pcb) : Prop extends Rests p s where
  since : (s.proc p).isSuspended = true → suspends ∨ (b.proc p).isSuspended = true

/-- A process that is suspended neither before nor after. -/
theorem RestsSince.of_not_suspended {b : Pcb} {suspends : Prop}
    (h : (s.proc p).isSuspended = false) : RestsSince b suspends p s := by
  have hnot : ¬ (s.proc p).isSuspended = true := by
    rw [h]
    exact Bool.false_ne_true
  exact ⟨⟨fun hs => absurd hs hnot, fun hs => absurd hs hnot⟩, fun hs => absurd hs hnot⟩

/-- The record after a move, where it may be suspended only as it was. -/
structure KeepsRest (x y : Process) : Prop where
  suspended : y.isSuspended = true → x.isSuspended = true
  state : x.processState = .waiting → y.isSuspended = true → y.processState = .waiting

theorem RestsSince.move {b : Pcb} {suspends ends : Prop} {p' : Nat}
    (h : p < s.nextProc → RestsSince b suspends p s) (hsound : Sound s)
    (hm : Move (respecting b suspends ends p') s s') (hp : p < s'.nextProc) :
    RestsSince b suspends p s' := by
  rcases hm.allocated hp with hlt | hy
  swap
  · exact .of_not_suspended hy.isSuspended
  have hrests := h hlt
  have hhandler : s'.errorHandlerProcess = some p → s.errorHandlerProcess = some p := fun hp =>
    (hm.handler hp).resolve_right hlt.ne
  -- what is suspended as it was, and waits
  have hkeeps : KeepsRest (s.proc p) (s'.proc p) → RestsSince b suspends p s' := fun hk =>
    ⟨⟨fun hs => hk.state (hrests.waits (hk.suspended hs)) hs,
      fun hs heh => hrests.notHandler (hk.suspended hs) (hhandler heh)⟩,
      fun hs => hrests.since (hk.suspended hs)⟩
  have hactive : Calls s p → (s.proc p).isSuspended = false := fun hcalls => by
    rw [← Bool.not_eq_true]
    exact fun hs => (hcalls.active hsound).1 (hrests.waits hs)
  have hchange := hm.change p
  have hwoken : ¬ suspends ∧ (b.proc p).isSuspended = false → (s.proc p).isSuspended = false := by
    rintro ⟨hnot, hb⟩
    rw [← Bool.not_eq_true]
    intro hs
    rcases hrests.since hs with hsus | hwas
    · exact hnot hsus
    · rw [hb] at hwas
      cases hwas
  have hfalse : ∀ y : Process, s'.proc p = y → y.isSuspended = false → RestsSince b suspends p s' := by
    rintro y rfl hs
    exact .of_not_suspended hs
  have hsuspended : ∀ y : Process, s'.proc p = y → y.processState = .waiting → suspends →
      s.errorHandlerProcess ≠ some p → RestsSince b suspends p s' := by
    rintro y rfl hstate hsus hnot
    exact ⟨⟨fun _ => hstate, fun _ heh => hnot (hhandler heh)⟩, fun _ => Or.inl hsus⟩
  generalize hx : s.proc p = x at hchange hkeeps hactive hwoken hrests
  generalize hy : s'.proc p = y at hchange hkeeps
  cases hchange with
  | touch h => exact hkeeps ⟨fun hs => h.isSuspended ▸ hs, fun hw _ => h.processState.trans hw⟩
  | block q linked timer k hcalls hkind hmutex hown hA => exact hfalse _ hy (hactive hcalls)
  | blockOnErrors error k hcalls hown hA => exact hfalse _ hy (hactive hcalls)
  | sleep k timer hcalls hf hA =>
      by_cases hk : k = .suspendSelf
      · exact hsuspended _ hy hf.processState (hA hk).1 (hA hk).2
      · exact hfalse _ hy ((hf.isSuspended hk).trans (hactive hcalls))
  | wake q cancel rest hq hlist hA => exact hfalse _ hy (hwoken hA)
  | grant index mutexId rest hidx hstate hlist hA => exact hfalse _ hy (hwoken hA)
  | suspend hlinked hother hmutex howns hstate hA => exact hsuspended _ hy rfl hA.1 hA.2
  | resume | stop | stopSelf => exact hfalse _ hy rfl
  | start delayed hlinked hstate hf hA =>
      -- a dormant process is not suspended, or it would wait
      refine hfalse _ hy (hf.isSuspended.trans ?_)
      rw [← Bool.not_eq_true]
      intro hs
      have hwaits := hx ▸ hrests.waits (hx ▸ hs)
      rw [hstate] at hwaits
      cases hwaits
  | selfReady hcalls => exact hfalse _ hy (hactive hcalls)
  | fault hcalls hA => exact hfalse _ hy (hactive hcalls)
  | ignore c hlinked hc hid hA => exact hfalse _ hy (hx ▸ hA)
  | readyHandler heh =>
      refine hfalse _ hy ?_
      rw [← Bool.not_eq_true]
      exact fun hs => hrests.notHandler (hx ▸ hs) heh
  | schedule hctl h =>
      obtain ⟨st, rfl, rfl | ⟨hfrom, -⟩⟩ := h
      · exact hkeeps ⟨id, fun hw _ => hw⟩
      · refine hkeeps ⟨id, fun hw _ => ?_⟩
        rw [hw] at hfrom
        rcases hfrom with h | h <;> cases h
  | release hctl hlinked hA =>
      by_cases hdue : ReleaseDue s.krnl.uptime x
      · refine hfalse _ hy ?_
        have hnot := hwoken (hA hdue)
        unfold checkAndReleasePeriodicWaitingProcesses
        split_ifs <;> exact hnot
      · have hsame : checkAndReleasePeriodicWaitingProcesses s.krnl.uptime x = x := if_neg hdue
        rw [hsame] at hkeeps
        exact hkeeps ⟨id, fun hw _ => hw⟩
  | timeOuts hctl hlinked hA =>
      by_cases hdue : Due s.krnl.uptime x
      · refine hfalse _ hy ?_
        unfold Due at hdue
        unfold checkTimeouts
        rw [if_pos hdue]
      · have hsame : checkTimeouts s.krnl.uptime x = x := if_neg hdue
        rw [hsame] at hkeeps
        exact hkeeps ⟨id, fun hw _ => hw⟩
  | spawn hp hrun hmode hy hA => exact absurd hp hlt.ne
  | toNormal hrun hmode hlinked h hA =>
      obtain ⟨release, deadline, rfl⟩ := h
      refine hkeeps ⟨id, fun hw hs => ?_⟩
      dsimp only at hs ⊢
      rw [if_neg]
      · exact hw
      · rw [hs]
        exact fun h => Bool.false_ne_true h.2.2.2.symm
  | _ => exact hkeeps ⟨id, fun hw _ => hw⟩

/-! ## From the start of a suspension to its end -/

/-- Process `p` is suspended and waits; its time-out is `timer`, and it resumes in `k`. -/
structure Held (p : Nat) (timer : Int) (k : Context) (s : Pcb) : Prop where
  suspended : (s.proc p).isSuspended = true
  waits : (s.proc p).processState = .waiting
  timer : (s.proc p).timeCounter = timer
  context : (s.proc p).context = k

/-- A step that does not suspend suspends nobody. -/
theorem Change.suspended {b : Pcb} {suspends ends : Prop} {p' : Nat} {x y : Process}
    (h : Change (respecting b suspends ends p') s s' p x y) (hs : y.isSuspended = true) :
    x.isSuspended = true ∨ suspends := by
  cases h with
  | touch h => exact Or.inl (h.isSuspended ▸ hs)
  | sleep k timer hcalls hf hA =>
      by_cases hk : k = .suspendSelf
      · exact Or.inr (hA hk).1
      · exact Or.inl (hf.isSuspended hk ▸ hs)
  | suspend hlinked hother hmutex howns hstate hA => exact Or.inr hA.1
  | resume | stop | stopSelf => cases hs
  | start delayed hlinked hstate hf hA => exact Or.inl (hf.isSuspended ▸ hs)
  | schedule hctl h =>
      obtain ⟨st, rfl, -⟩ := h
      exact Or.inl hs
  | release hctl hlinked hA =>
      unfold checkAndReleasePeriodicWaitingProcesses at hs
      split_ifs at hs <;> exact Or.inl hs
  | timeOuts hctl hlinked hA =>
      unfold checkTimeouts at hs
      split_ifs at hs
      exact Or.inl hs
  | spawn hp hrun hmode hy hA =>
      rw [hy.isSuspended] at hs
      cases hs
  | toNormal hrun hmode hlinked h hA =>
      obtain ⟨release, deadline, rfl⟩ := h
      exact Or.inl hs
  | _ => exact Or.inl hs

/-- A held process is held on, or the move ends its suspension. -/
theorem Held.move {b : Pcb} {suspends ends : Prop} {timer : Int} {k : Context} (h : Held p timer k s)
    (hrests : RestsSince b suspends p s) (hsound : Sound s) (hlt : p < s.nextProc)
    (hm : Move (respecting b suspends ends p) s s') :
    Held p timer k s' ∨ (s'.proc p).isSuspended = false ∧ ends := by
  have hchange := hm.change p
  have hidle : ¬ Calls s p := fun hcalls => (hcalls.active hsound).1 h.waits
  have hwoken : ¬ (¬ suspends ∧ (b.proc p).isSuspended = false) := by
    rintro ⟨hnot, hb⟩
    rcases hrests.since h.suspended with hsus | hwas
    · exact hnot hsus
    · rw [hb] at hwas
      cases hwas
  have hnot := hrests.notHandler h.suspended
  obtain ⟨hsuspended, hwaits, htimer, hcontext⟩ := h
  -- the four fields of the new record
  have hheld : (s'.proc p).isSuspended = true → (s'.proc p).processState = .waiting →
      (s'.proc p).timeCounter = timer → (s'.proc p).context = k → Held p timer k s' :=
    fun h₁ h₂ h₃ h₄ => ⟨h₁, h₂, h₃, h₄⟩
  generalize hx : s.proc p = x at hchange hsuspended hwaits htimer hcontext
  generalize s'.proc p = y at hchange hheld ⊢
  cases hchange with
  | touch h =>
      exact Or.inl (hheld (h.isSuspended.trans hsuspended) (h.processState.trans hwaits)
        (h.timeCounter.trans htimer) (h.context.trans hcontext))
  | block q linked timer k hcalls hkind hmutex hown hA => exact absurd hcalls hidle
  | blockOnErrors error k hcalls hown hA => exact absurd hcalls hidle
  | sleep k timer hcalls hf hA => exact absurd hcalls hidle
  | yield k hcalls hown => exact absurd hcalls hidle
  | wake q cancel rest hq hlist hA => exact absurd hA hwoken
  | grant index mutexId rest hidx hstate hlist hA => exact absurd hA hwoken
  | suspend hlinked hother hmutex howns hstate hA => exact Or.inl (hheld rfl rfl htimer hcontext)
  | resume hlinked hstate hwas hA => exact Or.inr ⟨rfl, hA rfl⟩
  | stop waiting hlinked hother hA => exact Or.inr ⟨rfl, hA rfl⟩
  | stopSelf hcalls => exact absurd hcalls hidle
  | start delayed hlinked hstate hf hA =>
      rw [hwaits] at hstate
      cases hstate
  | selfReady hcalls => exact absurd hcalls hidle
  | timerOff hcalls => exact absurd hcalls hidle
  | fault hcalls hA => exact absurd hcalls hidle
  | ignore c hlinked hc hid hA =>
      have hfalse : (s.proc p).isSuspended = false := hA
      rw [hx, hsuspended] at hfalse
      cases hfalse
  | readyHandler heh => exact absurd heh hnot
  | initHandler heh => exact absurd heh hnot
  | schedule hctl h =>
      obtain ⟨st, rfl, rfl | ⟨hfrom, -⟩⟩ := h
      · exact Or.inl (hheld hsuspended hwaits htimer hcontext)
      · rw [hwaits] at hfrom
        rcases hfrom with h | h <;> cases h
  | release hctl hlinked hA =>
      have hdue : ¬ ReleaseDue s.krnl.uptime x := fun hdue => hwoken (hA hdue)
      have hsame : checkAndReleasePeriodicWaitingProcesses s.krnl.uptime x = x := if_neg hdue
      rw [hsame] at hheld ⊢
      exact Or.inl (hheld hsuspended hwaits htimer hcontext)
  | timeOuts hctl hlinked hA =>
      by_cases hdue : Due s.krnl.uptime x
      · refine Or.inr ⟨?_, hA hdue (hx ▸ hsuspended) rfl⟩
        unfold Due at hdue
        unfold checkTimeouts
        rw [if_pos hdue]
      · have hsame : checkTimeouts s.krnl.uptime x = x := if_neg hdue
        rw [hsame] at hheld ⊢
        exact Or.inl (hheld hsuspended hwaits htimer hcontext)
  | spawn hp hrun hmode hy hA => exact absurd hp hlt.ne
  | toNormal hrun hmode hlinked h hA =>
      obtain ⟨release, deadline, rfl⟩ := h
      refine Or.inl (hheld hsuspended ?_ htimer hcontext)
      dsimp only
      rw [if_neg]
      · exact hwaits
      · rw [hsuspended]
        exact fun h => Bool.false_ne_true h.2.2.2.symm
  | _ => exact Or.inl (hheld hsuspended hwaits htimer hcontext)

/-- The action may end the suspension of process `p`: `RESUME` or `STOP` of it, or its time-out. -/
def EndsSuspension (p : Nat) (s : Pcb) : Action → Prop
  | .call (.resume processId) | .call (.stop processId) =>
    ∃ node, s.isProcessIdExisted processId = some node ∧ node.data = p
  | .loop => (s.proc p).context = .suspendSelf ∧ Due s.krnl.uptime (s.proc p)
  | _ => False

theorem permits_respecting {e : Action} (hok : RespectsSuspension s e) (hloop : e ≠ .loop) :
    Permits (respecting s (Suspends e) (EndsSuspension p s e) p) s e := by
  have hwakes : ∀ service, e = .call service → ∀ p', Wakes s service p' →
      ¬ Suspends e ∧ (s.proc p').isSuspended = false := by
    rintro service rfl p' hwakes
    cases service
    case suspend | suspendSelf | raiseApplicationError => cases hwakes
    all_goals exact ⟨id, hok p' hwakes⟩
  refine MayAct.permits {
    sleep := fun _ _ _ _ _ k hk _ hself => absurd hself hk
    suspendSelf := ?_
    wake := fun _ => hwakes
    grant := fun _ => hwakes
    tick := fun he => absurd he hloop
    suspend := ?_
    resume := ?_
    stop := ?_
    ignore := ?_ }
  · rintro timeOut rfl - c - hcan -
    unfold cannotBlock at hcan
    simp only [Bool.or_eq_false_iff, decide_eq_false_iff_not] at hcan
    exact ⟨trivial, hcan.2⟩
  · rintro processId node rfl hnode hperiod hsuspended hdormant
    exact ⟨trivial, hok node hnode hperiod hsuspended hdormant⟩
  · rintro processId node rfl hnode hd
    exact ⟨node, hnode, hd⟩
  · rintro processId node rfl hnode hd
    exact ⟨node, hnode, hd⟩
  · intro hraises c hc node hmem hid
    have hawake : (s.proc node.data).isSuspended = false := by
      cases e with
      | call service =>
          cases service
          case raiseApplicationError => exact hok c hc node hmem hid
          all_goals cases hraises
      | fault => exact hok c hc node hmem hid
      | _ => cases hraises
    refine ⟨hawake, ?_⟩
    show ((s.modProc c.data fun x => { x with processState := .faulted }).proc node.data).isSuspended
      = false
    by_cases heq : node.data = c.data
    · rw [heq, modProc_proc_self, ← heq]
      exact hawake
    · rw [modProc_proc_of_ne heq]
      exact hawake

/-- Every process rests, and is suspended only as in state `b`, or because the step suspends. -/
def AllRest (b : Pcb) (suspends : Prop) (s : Pcb) : Prop :=
  ∀ p < s.nextProc, RestsSince b suspends p s

theorem AllRest.refl {suspends : Prop} (h : ∀ p < s.nextProc, Rests p s) : AllRest s suspends s :=
  fun p hp => ⟨h p hp, Or.inr⟩

theorem checkAndRelease_isSuspended (uptime : Nat) (x : Process) :
    (checkAndReleasePeriodicWaitingProcesses uptime x).isSuspended = x.isSuspended := by
  unfold checkAndReleasePeriodicWaitingProcesses
  split_ifs <;> rfl

/-- What the moves of a step that respects suspension keep, the step keeps. A turn of the loop is taken in
    two parts, since what has timed out at the tick may be woken at a port. -/
theorem RespectsSuspension.keep {I : Pcb → Prop} {e : Action} (hok : RespectsSuspension s e)
    (hstep : s.step e = some s') (hsound : Sound s) (hrests : ∀ p < s.nextProc, Rests p s)
    (hmove : ∀ b t t', Sound t → AllRest b (Suspends e) t → I t →
      Move (respecting b (Suspends e) (EndsSuspension p s e) p) t t' → I t')
    (hI : I s) : (∀ p < s'.nextProc, Rests p s') ∧ I s' := by
  have hkeep : ∀ b t t', Moves (respecting b (Suspends e) (EndsSuspension p s e) p) t t' → Sound t →
      AllRest b (Suspends e) t → I t → Sound t' ∧ AllRest b (Suspends e) t' ∧ I t' := by
    intro b t t' hmoves ht hall hI
    exact Moves.keep (I := fun u => AllRest b (Suspends e) u ∧ I u)
      (fun u u' hu h hm => ⟨fun p' => RestsSince.move (h.1 p') hu hm, hmove b u u' hu h.1 h.2 hm⟩)
      hmoves ht ⟨hall, hI⟩
  have hdone : ∀ b, Moves (respecting b (Suspends e) (EndsSuspension p s e) p) b s' → Sound b →
      (∀ p < b.nextProc, Rests p b) → I b → (∀ p < s'.nextProc, Rests p s') ∧ I s' := by
    intro b hmoves hb hall hI
    obtain ⟨-, hall', hI'⟩ := hkeep b b s' hmoves hb (.refl hall) hI
    exact ⟨fun p' hp' => (hall' p' hp').toRests, hI'⟩
  by_cases hloop : e = .loop
  swap
  · exact hdone s (step_moves hsound.running (permits_respecting hok hloop) hstep) hsound hrests hI
  subst hloop
  obtain ⟨hctl, rfl⟩ := loop_eq_some hstep
  by_cases hstarting : Starting s
  · refine hdone s ?_ hsound hrests hI
    unfold Starting at hstarting
    rw [partitionOsLoop_eq, if_pos hstarting]
    exact .single (.main s hstarting)
  by_cases htick : s.krnl.ticks ≠ s.lastTick
  swap
  · refine hdone s (afterTick_moves hctl hstarting trivial ?_) hsound hrests hI
    rw [if_neg htick]
  obtain ⟨hrelease, hexpire, hports⟩ := hok hstarting htick
  -- the clock's part, from the state before
  have hframe : Frame s { s with lastTick := s.krnl.ticks } :=
    frame_counters s s.status.lockLevel s.errorListCb s.krnl.ticks _ _ _ _
  obtain ⟨hclock, -⟩ := clock_moves (A := respecting s (Suspends .loop) (EndsSuspension p s .loop) p)
    (s := { s with lastTick := s.krnl.ticks }) hctl
    (fun p' hlinked hdue => ⟨id, by
      rw [← Bool.not_eq_true]
      exact fun hs => hrelease p' hlinked hs hdue⟩)
    (by
      rw [forEachProcess_eq]
      rintro p' hlinked hdue hs rfl
      dsimp only at hlinked hdue hs
      rw [visited_of_linked (checkAndRelease_idem _) hlinked] at hdue hs
      unfold Due at hdue
      rw [checkAndRelease_timeCounter] at hdue
      rw [checkAndRelease_isSuspended] at hs
      exact ⟨hexpire p' hlinked hs hdue, hdue⟩)
  obtain ⟨hsound', hall, hI'⟩ := hkeep s s s.ticked (.head (.frame hframe) hclock) hsound (.refl hrests) hI
  -- the ports and the dispatch, from the state after the clock's part
  refine hdone s.ticked (afterTick_moves hctl hstarting trivial ?_) hsound' (fun p' hp' => (hall p' hp').toRests) hI'
  rw [if_pos htick]
  refine (checkPorts_moves (A := respecting s.ticked (Suspends .loop) (EndsSuspension p s .loop) p)
    s.ticked fun p' hp' => ⟨id, hports p' ?_⟩).1
  obtain ⟨proc, hticked⟩ := ticked_eq s
  rw [hticked] at hp'
  exact hp'

theorem RespectsSuspension.rests {e : Action} (hok : RespectsSuspension s e) (hstep : s.step e = some s')
    (hsound : Sound s) (hrests : ∀ p < s.nextProc, Rests p s) : ∀ p < s'.nextProc, Rests p s' :=
  (hok.keep (I := fun _ => True) (p := 0) hstep hsound hrests (fun _ _ _ _ _ _ _ => trivial) trivial).1

/-- A step that respects suspension holds a held process, or is one that may end its suspension. -/
theorem Held.step {timer : Int} {k : Context} {e : Action} (h : Held p timer k s)
    (hok : RespectsSuspension s e) (hstep : s.step e = some s') (hsound : Sound s) (hlt : p < s.nextProc)
    (hrests : ∀ p < s.nextProc, Rests p s) :
    p < s'.nextProc
      ∧ (Held p timer k s' ∨ (s'.proc p).isSuspended = false ∧ EndsSuspension p s e) := by
  have hnot : Suspends e → ¬ EndsSuspension p s e := by
    intro hsuspends hends
    cases e with
    | call service =>
        cases service
        case suspend | suspendSelf => exact hends
        all_goals exact hsuspends
    | _ => exact hsuspends
  refine (hok.keep (p := p) (I := fun t => p < t.nextProc ∧ (Held p timer k t
    ∨ (t.proc p).isSuspended = false ∧ EndsSuspension p s e)) hstep hsound hrests ?_ ⟨hlt, Or.inl h⟩).2
  rintro b t t' ht hall ⟨hp, hheld | ⟨hfalse, hends⟩⟩ hm
  · exact ⟨hp.trans_le hm.nextProc_le, hheld.move (hall p hp) ht hp hm⟩
  · refine ⟨hp.trans_le hm.nextProc_le, Or.inr ⟨?_, hends⟩⟩
    rw [← Bool.not_eq_true]
    intro hs
    rcases (hm.change p).suspended hs with hwas | hsuspends
    · rw [hfalse] at hwas
      cases hwas
    · exact hnot hsuspends hends

/-! ## Runs -/

/-- Process `p` is suspended. -/
def Suspended (p : Nat) (s : Pcb) : Prop := (s.proc p).isSuspended = true

/-- What holds after every run whose steps respect suspension. -/
structure Undisturbed (s : Pcb) : Prop where
  allocated : Allocated s
  rests : ∀ p < s.nextProc, Rests p s
  idle : ∀ p < s.nextProc, IdleTimer True p s

theorem Undisturbed.step {e : Action} (h : Undisturbed s) (hsound : Sound s) (hok : RespectsSuspension s e)
    (hstep : s.step e = some s') : Undisturbed s' := by
  have hall := step_moves hsound.running (permits_all s e) hstep
  refine ⟨(Moves.keep (fun _ _ _ h hm => h.move hm) hall hsound h.allocated).2,
    hok.rests hstep hsound h.rests, fun p => ?_⟩
  refine (Moves.keep (A := idleSleeper True p) (I := fun t => p < t.nextProc → IdleTimer True p t)
    (fun _ _ _ h hm => IdleTimer.move h hm) ?_ hsound (h.idle p)).2
  refine step_moves hsound.running (MayAct.permits {
    sleep := fun _ _ _ _ _ _ _ _ _ _ => Or.inl trivial
    suspendSelf := fun _ _ _ _ _ _ _ _ => Or.inl trivial }) hstep

/-- A time-out of a suspended process that `SUSPEND_SELF` resumes is that of the call that suspended it. -/
theorem suspendSelf_of_armed {e : Action} (h : Undisturbed s) (hsound : Sound s)
    (hok : RespectsSuspension s e) (hstep : s.step e = some s') (hlt : p < s.nextProc)
    (hbefore : ¬ Suspended p s) (hafter : Suspended p s') (hcontext : (s'.proc p).context = .suspendSelf)
    (harmed : ¬ Unarmed (s'.proc p)) : ∃ timeOut, e = .call (.suspendSelf timeOut) ∧ 0 < timeOut
      ∧ (s'.proc p).timeCounter = s.fromNow timeOut := by
  have hidle : IdleTimer False p s := by
    intro hk
    rcases h.idle p hlt hk with ⟨-, hs⟩ | hunarmed
    · exact absurd hs hbefore
    · exact Or.inr hunarmed
  -- otherwise the step would leave the time-out idle
  have hcalls : ∃ timeOut, e = .call (.suspendSelf timeOut) ∧ timeOut ≠ infiniteTimeValue
      ∧ ∃ c, s.processCurrent = some c ∧ c.data = p := by
    by_contra hnone
    push Not at hnone
    have hmoves : Moves (idleSleeper False p) s s' := step_moves hsound.running (MayAct.permits {
      sleep := fun _ _ _ _ _ k hk _ _ hself => absurd hself hk
      suspendSelf := by
        rintro timeOut rfl - c hc - hcp -
        by_cases hinf : timeOut = infiniteTimeValue
        · rw [if_pos hinf]
          exact Or.inr ⟨rfl, hcp ▸ hok hinf c hc⟩
        · exact absurd hcp (hnone timeOut rfl hinf c hc) }) hstep
    obtain ⟨-, hlt', hidle'⟩ := Moves.keep (I := fun t => p < t.nextProc ∧ IdleTimer False p t)
      (fun _ _ _ h hm => ⟨h.1.trans_le hm.nextProc_le,
        IdleTimer.move (fun _ => h.2) hm (h.1.trans_le hm.nextProc_le)⟩) hmoves hsound ⟨hlt, hidle⟩
    rcases hidle' hcontext with ⟨hfalse, -⟩ | hunarmed
    · exact hfalse
    · exact harmed hunarmed
  obtain ⟨timeOut, rfl, hinf, hcaller⟩ := hcalls
  have hwaits : Waiting p s' := (hok.rests hstep hsound h.rests p
    (hlt.trans_le (Moves.keep (A := .all) (I := fun t => s.nextProc ≤ t.nextProc)
      (fun _ _ _ h hm => h.trans hm.nextProc_le) (step_moves hsound.running (permits_all s _) hstep) hsound
      le_rfl).2)).waits hafter
  obtain ⟨hfinite, -, hrecord⟩ := SuspendsSelf.record ⟨hcaller, hstep, hwaits⟩ hsound
  refine ⟨timeOut, rfl, hfinite.resolve_left hinf, ?_⟩
  rw [hrecord]
  exact if_pos hinf

theorem undisturbed_startPartitionOs (period identifier : Int) (conf : PartitionConf) (maxErrors : Nat)
    (krnl : Krnl) (memory : Nat → Process) (lastTick : Nat) :
    Undisturbed (partitionInit period identifier conf maxErrors krnl memory lastTick).startPartitionOs := by
  have hallocated := (queues_of_run period identifier conf maxErrors krnl memory lastTick
    (Transition.run_nil step _)).2.allocated
  refine ⟨hallocated, fun p hp => ?_, fun p hp => ?_⟩
  all_goals
    rw [nextProc_startPartitionOs] at hp
    exact absurd hp (Nat.not_lt_zero p)

/-- Action `e` in state `u` ends a suspension that `e₀` has begun in state `s`: `RESUME` or `STOP` of the
    process, or the time-out of the `SUSPEND_SELF` that began it. -/
def EndsProperly (p : Nat) (s : Pcb) (e₀ : Action) (u : Pcb) : Action → Prop
  | .call (.resume processId) | .call (.stop processId) =>
    ∃ node, u.isProcessIdExisted processId = some node ∧ node.data = p
  | .loop => ∃ timeOut, e₀ = .call (.suspendSelf timeOut) ∧ 0 < timeOut
      ∧ s.fromNow timeOut ≤ u.krnl.uptime
  | _ => False

/-- In a run whose steps respect suspension no suspended process is `READY` or runs, and a suspension that
    begins ends only properly. -/
theorem suspension_is_respected (period identifier : Int) (conf : PartitionConf) (maxErrors : Nat)
    (krnl : Krnl) (memory : Nat → Process) (lastTick : Nat) {es : List Action}
    (hrun : Transition.GuardedRun step RespectsSuspension
      (partitionInit period identifier conf maxErrors krnl memory lastTick).startPartitionOs es s) :
    (∀ p, (∃ n ∈ s.processes, n.data = p) → Suspended p s →
      (s.proc p).processState ≠ .ready ∧ (s.proc p).processState ≠ .running)
    ∧ ∀ p e₀ s₁ es' s₂ u e, (∃ n ∈ s.processes, n.data = p) → ¬ Suspended p s →
      RespectsSuspension s e₀ → s.step e₀ = some s₁ →
        Transition.GuardedRun step RespectsSuspension s₁ es' s₂ →
          Transition.Leaves step (Suspended p) s₁ es' u e → EndsProperly p s e₀ u e := by
  obtain ⟨hsound, h⟩ := hrun.invariant (I := fun t => Sound t ∧ Undisturbed t)
    (fun t e t' ht hok hstep => ⟨ht.1.step hstep, ht.2.step ht.1 hok hstep⟩)
    ⟨sound_startPartitionOs period identifier conf maxErrors krnl memory lastTick,
      undisturbed_startPartitionOs period identifier conf maxErrors krnl memory lastTick⟩
  refine ⟨fun p hlinked hs => ?_, ?_⟩
  · have hwaits := (h.rests p (h.allocated p (Or.inl hlinked))).waits hs
    rw [hwaits]
    exact ⟨ProcessState.noConfusion, ProcessState.noConfusion⟩
  intro p e₀ s₁ es' s₂ u e hlinked hbefore hok hstep hwait hends
  have hlt := h.allocated p (Or.inl hlinked)
  have hsound₁ := hsound.step hstep
  have h₁ := h.step hsound hok hstep
  have hlt₁ : p < s₁.nextProc := by
    have hmoves := step_moves hsound.running (permits_all s e₀) hstep
    exact (Moves.keep (I := fun t => p < t.nextProc) (fun _ _ _ h hm => h.trans_le hm.nextProc_le)
      hmoves hsound hlt).2
  have hsuspended₁ : Suspended p s₁ := hends.holds
  have hheld₁ : Held p (s₁.proc p).timeCounter (s₁.proc p).context s₁ :=
    ⟨hsuspended₁, (h₁.rests p hlt₁).waits hsuspended₁, rfl, rfl⟩
  -- the process is held up to the step that ends its suspension
  obtain ⟨es₁, es₂, u', hbeforeEnd, hin, hoku, hstepu, hout, -⟩ := hends.split hwait
  obtain ⟨hsoundu, hu, hltu, hheldu⟩ := hbeforeEnd.invariant
    (I := fun t => Sound t ∧ Undisturbed t ∧ p < t.nextProc
      ∧ (Suspended p t → Held p (s₁.proc p).timeCounter (s₁.proc p).context t))
    (fun t e t' ht hok' hstep' => by
      obtain ⟨htsound, hund, hlt', hheld⟩ := ht
      obtain ⟨hnext, hafter⟩ := (hheld hok'.2).step hok'.1 hstep' htsound hlt' hund.rests
      refine ⟨htsound.step hstep', hund.step htsound hok'.1 hstep', hnext, fun hs => ?_⟩
      rcases hafter with hheld' | ⟨hfalse, -⟩
      · exact hheld'
      · rw [Suspended, hfalse] at hs
        cases hs) ⟨hsound₁, h₁, hlt₁, fun _ => hheld₁⟩
  obtain ⟨-, hheld' | ⟨-, hended⟩⟩ := (hheldu hin).step hoku hstepu hsoundu hltu hu.rests
  · exact absurd hheld'.suspended hout
  cases e with
  | call service =>
      cases service
      case resume processId => exact hended
      case stop processId => exact hended
      all_goals cases hended
  | loop =>
      -- the time-out was running when the suspension began
      obtain ⟨hcontext, hdue⟩ := hended
      obtain ⟨-, -, htimer, hcontext'⟩ := hheldu hin
      have harmed : ¬ Unarmed (s₁.proc p) := by
        rintro (hzero | hinf)
        · exact hdue.1 (htimer.trans hzero)
        · exact hdue.2.2 (htimer.trans hinf)
      obtain ⟨timeOut, he₀, hpositive, hcounter⟩ := suspendSelf_of_armed h hsound hok hstep hlt hbefore
        hsuspended₁ (hcontext'.symm.trans hcontext) harmed
      refine ⟨timeOut, he₀, hpositive, ?_⟩
      rw [← hcounter, ← htimer]
      exact hdue.2.1
  | _ => cases hended

/-- A turn of the loop without a new tick, or of a partition that starts, respects suspension. -/
theorem respectsSuspension_loop (h : Starting s ∨ s.krnl.ticks = s.lastTick) :
    RespectsSuspension s .loop := fun hstarting htick => by
  rcases h with hs | ht
  · exact absurd hs hstarting
  · exact absurd ht htick

/-- The two processes of `twoProcesses` are started in steps that respect suspension. -/
theorem twoProcesses_respects : ∃ s, Transition.GuardedRun step RespectsSuspension (defaultPartition 1)
    twoProcesses s ∧ Transition.run step (defaultPartition 1) twoProcesses = some s :=
  -- the calls in between wake nobody, whatever the state
  twoProcesses_guarded (fun _ h => respectsSuspension_loop h) (by
    simp [twoProcesses, RespectsSuspension, Wakes])

theorem suspension_is_respected_resume :
    ∃ s s₁ s₂, Transition.run step (defaultPartition 1) twoProcesses = some s
      ∧ s.step (.call (.suspend 2)) = some s₁ ∧ Suspended 1 s₁
      ∧ (s₁.proc 1).processState ≠ .ready ∧ (s₁.proc 1).processState ≠ .running
      ∧ s₁.step (.call (.resume 2)) = some s₂ ∧ ¬ Suspended 1 s₂
      ∧ EndsProperly 1 s (.call (.suspend 2)) s₁ (.call (.resume 2)) := by
  obtain ⟨s, hguarded, hs⟩ := twoProcesses_respects
  have hrun : ((Transition.run step (defaultPartition 1) twoProcesses).bind fun s =>
      (s.step (.call (.suspend 2))).bind fun s₁ => (s₁.step (.call (.resume 2))).map fun s₂ =>
        (s.processes, (s.proc 1).isSuspended, s.errorHandlerProcess, s₁.processes,
          (s₁.proc 1).isSuspended, (s₂.proc 1).isSuspended))
      = some ([⟨0, 0⟩, ⟨1, 1⟩], false, none, [⟨0, 0⟩, ⟨1, 1⟩], true, false) := by decide
  rw [hs, Option.bind_some] at hrun
  obtain ⟨s₁, hs₁, hrun⟩ := Option.bind_eq_some_iff.mp hrun
  obtain ⟨s₂, hs₂, hfields⟩ := Option.map_eq_some_iff.mp hrun
  simp only [Prod.mk.injEq] at hfields
  obtain ⟨hprocesses, hawake, hhandler, hprocesses₁, hsuspended, hresumed⟩ := hfields
  have hsuspend : RespectsSuspension s (.call (.suspend 2)) := by
    intro node hnode hperiod hnot hdormant
    rw [hhandler]
    exact fun h => nomatch h
  have hresume : RespectsSuspension s₁ (.call (.resume 2)) := fun p hwakes => absurd hwakes id
  have hlinked : ∃ n ∈ s.processes, n.data = 1 := by
    rw [hprocesses]
    exact ⟨⟨1, 1⟩, by decide, rfl⟩
  have hlinked₁ : ∃ n ∈ s₁.processes, n.data = 1 := by
    rw [hprocesses₁]
    exact ⟨⟨1, 1⟩, by decide, rfl⟩
  have hbefore : ¬ Suspended 1 s := by
    rw [Suspended, hawake]
    exact Bool.false_ne_true
  have hafter : ¬ Suspended 1 s₂ := by
    rw [Suspended, hresumed]
    exact Bool.false_ne_true
  have hends := (suspension_is_respected 50 1 defaultPartitionConf 10 defaultKrnl (fun _ => zeroProcess) 0
    hguarded).2 1 _ s₁ _ s₂ s₁ _ hlinked hbefore hsuspend hs₁ (.cons hresume hs₂ (.nil s₂))
    (.here hsuspended hs₂ hafter)
  obtain ⟨hready, hrunning⟩ := (suspension_is_respected 50 1 defaultPartitionConf 10 defaultKrnl
    (fun _ => zeroProcess) 0 (hguarded.snoc hsuspend hs₁)).1 1 hlinked₁ hsuspended
  exact ⟨s, s₁, s₂, hs, hs₁, hsuspended, hready, hrunning, hs₂, hafter, hends⟩

/-- A process that is suspended while it waits for a semaphore becomes `READY` at the next signal. -/
theorem suspended_waiter_is_signalled :
    ∃ s, Transition.run step (defaultPartition 1)
        (suspendedWaiter infiniteTimeValue ++ [.call (.signalSemaphore 1)]) = some s
      ∧ s.status.operatingMode = .normal ∧ (∃ n ∈ s.processes, n.data = 0) ∧ Suspended 0 s
      ∧ (s.proc 0).processState = .ready := by
  have hrun : (Transition.run step (defaultPartition 1)
      (suspendedWaiter infiniteTimeValue ++ [.call (.signalSemaphore 1)])).map (fun s =>
        (s.status.operatingMode, s.processes, (s.proc 0).isSuspended, (s.proc 0).processState))
      = some (.normal, [⟨0, 0⟩, ⟨1, 1⟩], true, .ready) := by decide
  obtain ⟨s, hs, hfields⟩ := Option.map_eq_some_iff.mp hrun
  simp only [Prod.mk.injEq] at hfields
  obtain ⟨hmode, hprocesses, hsuspended, hready⟩ := hfields
  refine ⟨s, hs, hmode, ?_, hsuspended, hready⟩
  rw [hprocesses]
  exact ⟨⟨0, 0⟩, by decide, rfl⟩

end Pcb

end UcxArinc
