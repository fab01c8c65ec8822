import UcxArinc.Proofs.Stores

set_option autoImplicit false

/-! # Processes that do not execute

While the processes of a partition communicate through blackboards, buffers, semaphores and events, a
process that does not execute only waits, is woken, is released or times out. A turn of the loop either
leaves it so or resumes the service it waits in. -/

namespace UcxArinc

namespace Pcb

variable {s s' : Pcb} {p : Nat} {B : Pcb → Nat → WaitList → Option Int → Prop}

/-! ## Waking everybody in a list -/

theorem wakeProcess_idem (k : Option WaitKind) (x : Process) :
    wakeProcess k true (wakeProcess k true x) = wakeProcess k true x := by
  cases k <;> by_cases hoff : x.timeCounter = 0 <;> simp [wakeProcess, hoff, infiniteTimeValue]

theorem wakeAll_of_nil {q : WaitList} (h : s.waitingProcesses q = []) : s.wakeAll q = s := by
  rw [wakeAll, h]
  rfl

theorem wakeAllAux_of_nil {q : WaitList} (h : s.waitingProcesses q = []) (n : Nat) : wakeAllAux q n s = s := by
  cases n with
  | zero => rfl
  | succ n =>
      rw [wakeAllAux, wakeFirst_eq_none.mpr h]

theorem wakeAll_of_cons {q : WaitList} {t : Pcb} (h : s.wakeFirst q true = some (p, t)) :
    s.wakeAll q = t.wakeAll q := by
  obtain ⟨rest, hlist, ht⟩ := wakeFirst_eq_some h
  have hrest : t.waitingProcesses q = rest := by
    rw [ht]
    exact Function.update_self _ _ _
  rw [wakeAll, hlist, List.length_cons, wakeAllAux, h]
  dsimp only
  rw [wakeAll, hrest]

/-- The loop ends when the list is empty: more turns change nothing. -/
theorem wakeAllAux_of_le {q : WaitList} {n : Nat} (h : (s.waitingProcesses q).length ≤ n) :
    wakeAllAux q n s = s.wakeAll q := by
  induction n generalizing s with
  | zero =>
      rw [Nat.le_zero, List.length_eq_zero_iff] at h
      rw [wakeAllAux_of_nil h, wakeAll_of_nil h]
  | succ n ih =>
      cases hwake : s.wakeFirst q true with
      | none =>
          have hnil := wakeFirst_eq_none.mp hwake
          rw [wakeAllAux_of_nil hnil, wakeAll_of_nil hnil]
      | some w =>
          obtain ⟨p, t⟩ := w
          obtain ⟨rest, hlist, ht⟩ := wakeFirst_eq_some hwake
          have hrest : t.waitingProcesses q = rest := by
            rw [ht]
            exact Function.update_self _ _ _
          rw [wakeAllAux, hwake, wakeAll_of_cons hwake]
          refine ih ?_
          rw [hrest]
          rw [hlist, List.length_cons] at h
          exact Nat.le_of_succ_le_succ h

/-- At its end nobody is in the list, and whoever was has been woken. -/
theorem wakeAll_spec (q : WaitList) (s : Pcb) : (s.wakeAll q).waitingProcesses = Function.update s.waitingProcesses q []
    ∧ ∀ p, (s.wakeAll q).proc p
      = if p ∈ s.waitingProcesses q then wakeProcess q.kind true (s.proc p) else s.proc p := by
  generalize hlist : s.waitingProcesses q = l
  induction l generalizing s with
  | nil =>
      rw [wakeAll_of_nil hlist]
      refine ⟨?_, fun p => by rw [if_neg List.not_mem_nil]⟩
      rw [← hlist, Function.update_eq_self]
  | cons first rest ih =>
      obtain ⟨⟨p', t⟩, hwake⟩ := Option.ne_none_iff_exists'.mp fun h : s.wakeFirst q true = none => by
        rw [wakeFirst_eq_none.mp h] at hlist
        cases hlist
      obtain ⟨rest', hlist', ht⟩ := wakeFirst_eq_some hwake
      rw [hlist] at hlist'
      obtain ⟨rfl, rfl⟩ := List.cons.inj hlist'
      have hlists : t.waitingProcesses = Function.update s.waitingProcesses q rest := by rw [ht]
      obtain ⟨hempty, hproc⟩ := ih t (by rw [hlists, Function.update_self])
      rw [wakeAll_of_cons hwake]
      refine ⟨by rw [hempty, hlists, Function.update_idem], fun p => ?_⟩
      rw [hproc, wakeFirst_proc hwake]
      by_cases hp : p = first
      · subst hp
        rw [if_pos rfl, if_pos List.mem_cons_self, wakeProcess_idem, ite_self]
      · simp [hp]

/-! ## Communication -/

/-- A call of a blackboard, buffer, semaphore or event service, or a step of the operating system. -/
def Communicates : Action → Prop
  | .call (.displayBlackboard _ _ _) | .call (.readBlackboard _ _) | .call (.clearBlackboard _)
  | .call (.sendBuffer _ _ _ _) | .call (.receiveBuffer _ _ _)
  | .call (.waitSemaphore _ _) | .call (.signalSemaphore _)
  | .call (.setEvent _) | .call (.resetEvent _) | .call (.waitEvent _ _)
  | .loop | .kernel _ _ _ _ _ _ => True
  | _ => False

/-- Waiting as `B` says, waking and time-outs. -/
def communicating (B : Pcb → Nat → WaitList → Option Int → Prop) : Permit where
  acquire _ := False
  giveBack _ := False
  block := B
  sleep _ _ _ _ := False
  wake _ := True
  grant _ := False
  suspend _ _ := False
  resume _ _ := False
  start _ _ := False
  stop _ _ := False
  quit _ _ := False
  expire _ _ := True
  prioritize _ := False
  requeue _ := False
  port _ _ := False
  create _ := False
  error _ := False
  ignore _ _ := False
  dispatch := False
  mode _ := False

theorem mayTick_communicating (s : Pcb) : MayTick (communicating B) s :=
  ⟨fun _ _ _ => trivial, fun _ _ _ => trivial, fun _ _ => trivial⟩

theorem Communicates.keepsMutex {e : Action} (h : Communicates e) : ¬ GivesMutexBack e := by
  cases e with
  | call service => cases service <;> first | exact id | exact fun _ => h
  | _ => exact id

theorem permits_communicating {e : Action} (hcomm : Communicates e) (hloop : e ≠ .loop)
    (hB : ∀ service, e = .call service → ∀ c, s.processCurrent = some c → ∀ t, Noted s c.data t →
      ∀ q, Blocks s service q → ∀ timer, B t c.data q timer) : Permits (communicating B) s e := by
  refine ⟨fun hgives => absurd hgives hcomm.keepsMutex, fun service hservice => ?_,
    fun service hservice p hp => ⟨fun hgives => absurd hgives hcomm.keepsMutex, fun _ => trivial⟩,
    fun errorCode a l he => ?_, fun he => absurd he hloop⟩
  · have hb := hB service hservice
    subst hservice
    cases service with
    | readBlackboard blackboardId timeOut =>
        exact fun i hi hempty hne _ c hc _ t ht => hb c hc t ht _ ⟨hne, i, hi, hempty, rfl⟩ _
    | sendBuffer bufferId messageAddr length timeOut =>
        exact fun i hi hfull hne _ c hc _ t ht => hb c hc t ht _ ⟨hne, i, hi, hfull, rfl⟩ _
    | receiveBuffer bufferId timeOut messageAddr =>
        exact fun i hi hnone hne _ c hc _ t ht => hb c hc t ht _ ⟨hne, i, hi, hnone, rfl⟩ _
    | waitSemaphore semaphoreId timeOut =>
        exact fun i hi hzero hne _ c hc _ t ht => hb c hc t ht _ ⟨hne, i, hi, hzero, rfl⟩ _
    | waitEvent eventId timeOut =>
        exact fun i hi hdown hne _ c hc _ t ht => hb c hc t ht _ ⟨hne, i, hi, hdown, rfl⟩ _
    | displayBlackboard | clearBlackboard | signalSemaphore | setEvent | resetEvent => trivial
    | _ => cases hcomm
  · rw [he] at hcomm
    cases hcomm

/-! ## A process that does not execute -/

/-- Process `p` waits or is ready, and does not execute. -/
structure Passive (p : Nat) (s : Pcb) : Prop where
  allocated : p < s.nextProc
  normal : s.status.operatingMode = .normal
  notHandler : s.errorHandlerProcess ≠ some p
  rests : (s.proc p).processState = .waiting ∨ (s.proc p).processState = .ready
  idle : ¬ Calls s p

theorem Passive.not_running (h : Passive p s) : (s.proc p).processState ≠ .running := by
  intro hr
  rcases h.rests with h | h <;> rw [hr] at h <;> cases h

/-- What can happen to the record of such a process. -/
inductive Passively (s : Pcb) (p : Nat) : Process → Process → Prop
  | same (x : Process) : Passively s p x x
  | touch {x y : Process} (h : Touched x y) : Passively s p x y
  | wake (x : Process) (q : WaitList) (rest : List Nat) (hlist : s.waitingProcesses q = p :: rest) :
      Passively s p x (wakeProcess q.kind (cancelsTimer q) x)
  | release (x : Process) (hdue : ReleaseDue s.krnl.uptime x) :
      Passively s p x (checkAndReleasePeriodicWaitingProcesses s.krnl.uptime x)
  | timeOut (x : Process) (hdue : Due s.krnl.uptime x) : Passively s p x (checkTimeouts s.krnl.uptime x)

theorem checkAndRelease_of_due {uptime : Nat} {x : Process} (h : ReleaseDue uptime x) :
    (checkAndReleasePeriodicWaitingProcesses uptime x).processState = .ready := by
  unfold ReleaseDue at h
  unfold checkAndReleasePeriodicWaitingProcesses
  rw [if_pos h]
  split <;> rfl

theorem checkTimeouts_of_due {uptime : Nat} {x : Process} (h : Due uptime x) :
    checkTimeouts uptime x = { x with isSuspended := false, timeCounter := 0, processState := .ready } := by
  unfold Due at h
  unfold checkTimeouts
  rw [if_pos h]

theorem Passively.state {x y : Process} (h : Passively s p x y) :
    y.processState = x.processState ∨ y.processState = .ready := by
  cases h with
  | same => exact Or.inl rfl
  | touch h => exact Or.inl h.processState
  | wake q rest hlist => exact Or.inr rfl
  | release hdue => exact Or.inr (checkAndRelease_of_due hdue)
  | timeOut hdue =>
      rw [checkTimeouts_of_due hdue]
      exact Or.inr rfl

theorem Passively.context {x y : Process} (h : Passively s p x y) : y.context = x.context := by
  cases h with
  | same => rfl
  | touch h => exact h.context
  | wake q rest hlist => rfl
  | release hdue =>
      unfold checkAndReleasePeriodicWaitingProcesses
      split_ifs <;> rfl
  | timeOut hdue => rw [checkTimeouts_of_due hdue]

/-- A move of the others leaves the process as it is, wakes it, releases it or lets it time out. -/
theorem Passive.move (h : Passive p s) (hm : Move (communicating B) s s') :
    Passive p s' ∧ Passively s p (s.proc p) (s'.proc p) := by
  have hidle := h.idle
  have hchanged : Passively s p (s.proc p) (s'.proc p) := by
    have hchange := hm.change p
    generalize s.proc p = x at hchange ⊢
    generalize s'.proc p = y at hchange ⊢
    cases hchange with
    | same => exact .same _
    | touch h => exact .touch h
    | setPriority priority hfree hmax hA => exact hA.elim
    | block q linked timer k hcalls => exact absurd hcalls hidle
    | blockOnErrors error k hcalls => exact absurd hcalls hidle
    | sleep k timer hcalls => exact absurd hcalls hidle
    | yield k hcalls => exact absurd hcalls hidle
    | wake q cancel rest hq hlist hA hrest hcancel =>
        rw [hcancel]
        exact .wake _ q rest hlist
    | grant index mutexId rest hidx hstate hlist hA => exact hA.elim
    | acquire index mutexId hcalls => exact absurd hcalls hidle
    | takeBack index mutexId hidx hown hA => exact hA.elim
    | suspend hlinked hother hmutex howns hstate hA => exact hA.elim
    | resume hlinked hstate hwas hA => exact hA.elim
    | stop waiting hlinked hother hA => exact hA.elim
    | stopSelf hcalls => exact absurd hcalls hidle
    | start delayed hlinked hstate hf hA => exact hA.elim
    | selfReady hcalls => exact absurd hcalls hidle
    | timerOff hcalls => exact absurd hcalls hidle
    | fault hcalls => exact absurd hcalls hidle
    | ignore c hlinked hc hid hA => exact hA.elim
    | readyHandler heh => exact absurd heh h.notHandler
    | initHandler heh => exact absurd heh h.notHandler
    | schedule hctl hr hA => exact hA.elim
    | release hctl hlinked hA =>
        by_cases hdue : ReleaseDue s.krnl.uptime x
        · exact .release _ hdue
        · rw [show checkAndReleasePeriodicWaitingProcesses s.krnl.uptime x = x from if_neg hdue]
          exact .same _
    | timeOuts hctl hlinked hA =>
        by_cases hdue : Due s.krnl.uptime x
        · exact .timeOut _ hdue
        · rw [show checkTimeouts s.krnl.uptime x = x from if_neg hdue]
          exact .same _
    | spawn hp hrun hmode hy hA => exact hA.elim
    | toNormal hrun hmode hlinked hstarted hA => exact hA.elim
  have hstate := hchanged.state
  have hrests : (s'.proc p).processState = .waiting ∨ (s'.proc p).processState = .ready := by
    rcases hstate with hsame | hready
    · rw [hsame]
      exact h.rests
    · exact Or.inr hready
  have hidle' : ¬ Calls s' p := by
    rintro ⟨hrun', c, hc, hd⟩
    rcases hm.current hc with ⟨c', hc', hd'⟩ | hrunning
    · rcases hm.control with hctl | hctl | hctl | ⟨node, -, hnode, hrunning⟩ | ⟨hstarting, -⟩
      · exact hidle ⟨hrun'.congr hctl.symm, c', hc', hd'.trans hd⟩
      · rcases hrun' with h | h <;> rw [hctl] at h <;> cases h
      · rcases hrun' with h | h <;> rw [hctl] at h <;> cases h
      · rw [hc'] at hnode
        cases hnode
        rw [hd', hd] at hrunning
        exact h.not_running hrunning
      · rw [Starting, h.normal] at hstarting
        rcases hstarting with hs | hs <;> cases hs
    · rw [hd] at hrunning
      rw [hrunning] at hrests
      rcases hrests with h | h <;> cases h
  rcases hm.partition with hsame | ⟨y, node, isErrorHandler, -, -, -, hmode⟩ | ⟨hmode, -⟩
  · exact ⟨⟨hsame.nextProc ▸ h.allocated, hsame.operatingMode.trans h.normal,
      hsame.errorHandlerProcess ▸ h.notHandler, hrests, hidle'⟩, hchanged⟩
  · exact absurd h.normal hmode
  · exact hmode.elim

/-- A process leaves a list by being woken there. -/
theorem Move.leaves (hm : Move (communicating B) s s') (hnormal : s.status.operatingMode = .normal)
    {q : WaitList} (hp : p ∈ s.waitingProcesses q) (hp' : p ∉ s'.waitingProcesses q) :
    s'.proc p = wakeProcess q.kind (cancelsTimer q) (s.proc p) := by
  cases hm with
  | frame hf => exact absurd (hf.waitingProcesses ▸ hp) hp'
  | moveNode node p' front follow hmovable hA => exact hA.elim
  | block p' q' linked discipline timer k =>
      obtain ⟨l, hperm, hlists, -⟩ := blocked_joins s p' q' linked discipline timer k
      rw [hlists] at hp'
      by_cases hq : q = q'
      · subst hq
        rw [Function.update_self, hperm.mem_iff] at hp'
        exact absurd (List.mem_cons_of_mem _ hp) hp'
      · rw [Function.update_of_ne hq] at hp'
        exact absurd hp hp'
  | blockOnErrors p' error k =>
      rw [blockedOnErrors_eq] at hp'
      by_cases hq : q = .errorProcesses
      · subst hq
        exact absurd (List.mem_cons_of_mem _ hp) (by simpa using hp')
      · exact absurd hp (by simpa [Function.update_of_ne hq] using hp')
  | wake q' cancel p' hwake hq hA hcancel =>
      obtain ⟨rest, hlist, heq⟩ := wakeFirst_eq_some hwake
      by_cases hsame : q = q'
      · subst hsame
        have hrest : p ∉ rest := by
          rw [heq] at hp'
          simpa using hp'
        rw [hlist] at hp
        rcases List.mem_cons.mp hp with rfl | hin
        · rw [wakeFirst_proc hwake, if_pos rfl, hcancel]
        · exact absurd hin hrest
      · rw [heq] at hp'
        exact absurd hp (by simpa [Function.update_of_ne hsame] using hp')
  | handOver index mutexId hhand hidx hstate hA =>
      rcases handMutexOver_eq_some hhand with ⟨-, rfl⟩ | ⟨woken, t, node, hwake, -, -⟩
      · exact absurd hp hp'
      · exact (hA woken (wakeFirst_firstIn hwake)).elim
  | acquire index p' node mutexId hcalls hidx hnode hdata hstate hfree hA => exact hA.elim
  | takeBack index p' node follow mutexId hrun hidx hown hmovable hA => exact hA.elim
  | stop node hnode hother hA => exact hA.elim
  | schedule hctl hmode hA => exact hA.elim
  | release hctl =>
      rw [forEachProcess_eq] at hp'
      exact absurd hp hp'
  | timeOuts hctl =>
      rw [forEachProcess_eq] at hp'
      exact absurd hp hp'
  | freshLists k i hmode => exact absurd hnormal hmode
  | toNormal point hrun hmode hA => exact hA.elim
  | _ => exact absurd hp hp'

/-! ## Turns of the loop -/

/-- The scheduler leaves alone a process that does not run and is not dispatched. -/
theorem processSchedule_other (hnot : s.errorHandlerProcess ≠ some p)
    (hidle : (s.proc p).processState ≠ .running)
    (hcur : ∀ c, s.processSchedule.processCurrent = some c → c.data ≠ p) :
    s.processSchedule.proc p = s.proc p := by
  have hrequeue : s.requeueCurrent.proc p = s.proc p := by
    rcases requeueCurrent_eq s with heq | ⟨node, -, hself, heq⟩
    · rw [heq]
    · rw [heq, modProc_proc_of_ne]
      rintro rfl
      exact hidle hself
  rcases processSchedule_cases s with ⟨handler, hhandler, -, heq⟩ | ⟨node, -, -, heq⟩ | heq
  · rw [heq, dispatch, modProc_proc_of_ne]
    · exact hrequeue
    · rintro rfl
      exact hnot hhandler
  · rw [heq] at hcur
    rw [heq, dispatch, modProc_proc_of_ne (hcur node rfl).symm]
    exact hrequeue
  · rw [heq]
    exact hrequeue

/-- The process dispatched was ready. -/
theorem processSchedule_dispatches (hidle : (s.proc p).processState ≠ .running) {c : Node}
    (hc : s.processSchedule.processCurrent = some c) (hd : c.data = p) :
    (s.proc p).processState = .ready
      ∧ s.processSchedule.proc p = { s.proc p with processState := .running } := by
  have hrequeue : s.requeueCurrent.proc p = s.proc p := by
    rcases requeueCurrent_eq s with heq | ⟨node, -, hself, heq⟩
    · rw [heq]
    · rw [heq, modProc_proc_of_ne]
      rintro rfl
      exact hidle hself
  rcases processSchedule_cases s with ⟨handler, -, hready, heq⟩ | ⟨node, -, hready, heq⟩ | heq
  · rw [heq] at hc
    have hfound : s.requeueCurrent.processes.find? (fun n => decide (n.data = handler)) = some c := hc
    have hdata : c.data = handler := by simpa using List.find?_some hfound
    obtain rfl : handler = p := hdata.symm.trans hd
    rw [hrequeue] at hready
    rw [heq, dispatch, modProc_proc_self]
    exact ⟨hready, congrArg (fun x : Process => { x with processState := .running }) hrequeue⟩
  · rw [heq] at hc
    cases hc
    subst hd
    rw [hrequeue] at hready
    rw [heq, dispatch, modProc_proc_self]
    exact ⟨hready, congrArg (fun x : Process => { x with processState := .running }) hrequeue⟩
  · rw [heq] at hc
    cases hc

/-- From state `t` on, the scheduler resumes process `p`, with outcome `o`. -/
structure Resumes (p : Nat) (t : Pcb) (o : Outcome) : Prop where
  ready : (t.proc p).processState = .ready
  record : t.processSchedule.proc p = { t.proc p with processState := .running }
  current : ∃ c, t.processSchedule.processCurrent = some c ∧ c.data = p
  outcome : { t.processSchedule with ctl := .process }.resumeContext p = o

/-- The tick of a turn of the loop, if there is one. -/
theorem tick_communicating (hctl : s.ctl = .partitionOs) :
    Moves (communicating B) s (if s.krnl.ticks ≠ s.lastTick then s.newTick else s)
      ∧ SameOs s (if s.krnl.ticks ≠ s.lastTick then s.newTick else s)
      ∧ (if s.krnl.ticks ≠ s.lastTick then s.newTick else s).stores = s.stores := by
  split
  · refine ⟨(newTick_moves hctl (mayTick_communicating s)).1, (newTick_moves hctl (mayTick_all s)).2, ?_⟩
    unfold newTick checkAvailableResourcesOnPartitionPort arincTimeUpdatePartition
    rw [checkPortsFrom_stores, forEachProcess_stores, forEachProcess_stores]
    rfl
  · exact ⟨.refl, .refl s, rfl⟩

/-- What the moves of the others keep of the process. -/
structure Keeps (B : Pcb → Nat → WaitList → Option Int → Prop) (p : Nat) (J : Pcb → Prop) : Prop where
  move : ∀ t t', Sound t → Passive p t → J t → Move (communicating B) t t' → J t'
  frame : ∀ t t', J t → t'.proc p = t.proc p → t'.waitingProcesses = t.waitingProcesses →
    t'.stores = t.stores → J t'

theorem Keeps.moves {J : Pcb → Prop} (h : Keeps B p J) (hmoves : Moves (communicating B) s s')
    (hsound : Sound s) (hp : Passive p s) (hJ : J s) : Sound s' ∧ Passive p s' ∧ J s' :=
  Moves.keep (I := fun u => Passive p u ∧ J u)
    (fun u u' hu hI hm => ⟨(hI.1.move hm).1, h.move u u' hu hI.1 hI.2 hm⟩) hmoves hsound ⟨hp, hJ⟩

/-- A turn of the loop leaves the process as it is, or resumes it. -/
theorem Passive.turn {J : Pcb → Prop} {r : Option Result} (h : Passive p s) (hsound : Sound s) (hJ : J s)
    (hkeeps : Keeps B p J) (hstep : s.stepOutcome .loop = some (s', r)) :
    Passive p s' ∧ J s' ∨ ∃ t, Sound t ∧ Passive p t ∧ J t ∧ t.stores = s.stores
      ∧ Moves (communicating B) s t ∧ Resumes p t (s', r) := by
  have hctl : s.ctl = .partitionOs ∧ some s.partitionOsLoop = some (s', r) := by
    simpa [stepOutcome] using hstep
  obtain ⟨hctl, hout⟩ := hctl
  have hstarting : ¬ (s.status.operatingMode = .coldStart ∨ s.status.operatingMode = .warmStart) := by
    rw [h.normal]
    exact fun hs => by rcases hs with hs | hs <;> cases hs
  have htick := tick_communicating (B := B) hctl
  have hdispatched : s.dispatched
      = (if s.krnl.ticks ≠ s.lastTick then s.newTick else s).processSchedule := rfl
  generalize (if s.krnl.ticks ≠ s.lastTick then s.newTick else s) = t at htick hdispatched
  obtain ⟨hmoves, hsame, hstores⟩ := htick
  obtain ⟨ht, hp, hJt⟩ := hkeeps.moves hmoves hsound h hJ
  have hidle := hp.not_running
  obtain ⟨proc, current, hsched, -, -⟩ := processSchedule_eq t
  have hnormal : t.processSchedule.status.operatingMode = .normal := by
    rw [hsched]
    exact hp.normal
  have hsoundS : Sound t.processSchedule := by
    refine ht.schedule (hsame.ctl.trans hctl) ?_
    rw [Starting, hsame.status]
    exact hstarting
  -- unless it is dispatched, the scheduler keeps the process passive
  have hstill : (∀ c, t.processSchedule.processCurrent = some c → c.data ≠ p) →
      Passive p t.processSchedule ∧ J t.processSchedule := by
    intro hcur
    have hrecord := processSchedule_other hp.notHandler hidle hcur
    refine ⟨⟨?_, hnormal, ?_, hrecord ▸ hp.rests, ?_⟩, hkeeps.frame t _ hJt hrecord ?_ ?_⟩
    · rw [hsched]
      exact hp.allocated
    · rw [hsched]
      exact hp.notHandler
    · rintro ⟨hrun, -⟩
      rw [Running, hsched, hsame.ctl, hctl] at hrun
      rcases hrun with h | h <;> cases h
    · rw [hsched]
    · rw [hsched]
      rfl
  rw [partitionOsLoop_eq, if_neg hstarting, hdispatched] at hout
  cases hcur : t.processSchedule.processCurrent with
  | none =>
      rw [hcur] at hout
      cases Option.some.inj hout
      exact Or.inl (hstill fun c hc => by rw [hcur] at hc; cases hc)
  | some c =>
      rw [hcur] at hout
      dsimp only at hout
      rw [if_pos hnormal] at hout
      by_cases hd : c.data = p
      · obtain ⟨hready, hrecord⟩ := processSchedule_dispatches hidle hcur hd
        refine Or.inr ⟨t, ht, hp, hJt, hstores, hmoves, hready, hrecord, ⟨c, hcur, hd⟩, ?_⟩
        rw [← hd]
        exact Option.some.inj hout
      · obtain ⟨hp', hJ'⟩ := hstill fun c' hc' => by
          rw [hcur] at hc'
          cases hc'
          exact hd
        obtain ⟨hmem, hself⟩ := processSchedule_current hcur
        have hresume : Moves (communicating B) t.processSchedule
            ({ t.processSchedule with ctl := .process }.resumeContext c.data).1 :=
          .head (.run _ c hcur hmem hself hnormal) (resumeContext_moves (Or.inl rfl) hcur)
        rw [Option.some.inj hout] at hresume
        exact Or.inl (hkeeps.moves hresume hsoundS hp' hJ').2

/-- What the others do leaves a process that does not execute as it is, with whatever their moves keep of it,
    or ends with the turn of the loop that resumes it. -/
theorem Passive.step {J : Pcb → Prop} {e : Action} {r : Option Result} (h : Passive p s) (hsound : Sound s)
    (hJ : J s) (hkeeps : Keeps B p J) (hcomm : Communicates e) (hstep : s.stepOutcome e = some (s', r))
    (hB : ∀ service, e = .call service → ∀ c, s.processCurrent = some c → ∀ t, Noted s c.data t →
      ∀ q, Blocks s service q → ∀ timer, B t c.data q timer) :
    Passive p s' ∧ J s' ∨ e = .loop ∧ ∃ t, Sound t ∧ Passive p t ∧ J t ∧ t.stores = s.stores
      ∧ Moves (communicating B) s t ∧ Resumes p t (s', r) := by
  by_cases hloop : e = .loop
  · subst hloop
    exact (h.turn hsound hJ hkeeps hstep).imp_right fun hresumed => ⟨rfl, hresumed⟩
  · have hmoves : Moves (communicating B) s s' := by
      refine step_moves hsound.running (permits_communicating hcomm hloop hB) ?_
      exact Option.map_eq_some_iff.mpr ⟨_, hstep, rfl⟩
    exact Or.inl (hkeeps.moves hmoves hsound h hJ).2

/-! ## From the call that blocks to the turn that resumes it -/

theorem not_calls_of_os (h : s.ctl = .partitionOs) : ¬ Calls s p := by
  rintro ⟨hrun | hrun, -⟩ <;> rw [h] at hrun <;> cases hrun

theorem not_calls_of_other {c : Node} (hc : s.processCurrent = some c) (hd : c.data ≠ p) : ¬ Calls s p := by
  rintro ⟨-, c', hc', rfl⟩
  rw [hc] at hc'
  cases hc'
  exact hd rfl

theorem call_outcome (hrun : Running s) (service : Service) :
    s.stepOutcome (.call service) = some (s.exec service) := if_pos hrun

/-- A process that a service has made wait does not execute. -/
theorem blocked_passive (hsound : Sound s) (hqueues : Queues s) (hcalls : Calls s p)
    (hcan : s.cannotBlock p = false) (q : WaitList) (linked : Bool) (discipline : QueuingDiscipline)
    (timer : Option Int) (k : Context) :
    Passive p ((s.waitOn p q linked discipline timer).yieldToPartition p k).1 := by
  have hnormal : s.status.operatingMode = .normal := by
    obtain ⟨hrun | hmain, c, hc, -⟩ := hcalls
    · exact (hsound.process hrun).1
    · rw [(hsound.starting (hsound.main hmain)).1] at hc
      cases hc
  have hnot : s.errorHandlerProcess ≠ some p := by
    unfold cannotBlock at hcan
    simp only [Bool.or_eq_false_iff, decide_eq_false_iff_not] at hcan
    exact hcan.2
  rw [blocked_eq]
  refine ⟨hqueues.allocated p (.of_calls hcalls), hnormal, hnot, Or.inl ?_, ?_⟩
  · dsimp only
    rw [Function.update_self]
    rfl
  · rintro ⟨hrun | hrun, -⟩ <;> cases hrun

/-- Process `p` has called a service that made it wait in list `q`, to resume in `k`, with a time-out if
    `timed`, and has not been resumed: it is in the list, or its wait has ended. -/
structure InWait (p : Nat) (q : WaitList) (k : Context) (timed : Bool) (s : Pcb) : Prop where
  context : (s.proc p).context = k
  listed : (s.proc p).processState = .waiting → p ∈ s.waitingProcesses q
  timer : timed = true → (s.proc p).timeCounter = 0 ∨ (s.proc p).timeCounter = infiniteTimeValue
    ∨ p ∈ s.waitingProcesses q
  counting : timed = true → (s.proc p).processState = .waiting → (s.proc p).timeCounter ≠ 0

/-- The wait of process `p` has ended before its time-out. -/
structure WaitEnded (p : Nat) (k : Context) (timed : Bool) (s : Pcb) : Prop where
  context : (s.proc p).context = k
  ready : (s.proc p).processState = .ready
  timer : timed = true → (s.proc p).timeCounter = infiniteTimeValue

theorem blocked_inWait (s : Pcb) (p : Nat) (q : WaitList) (linked : Bool) (discipline : QueuingDiscipline)
    (timer : Option Int) (k : Context) {timed : Bool} (htimer : timed = true → ∃ t, timer = some t ∧ t ≠ 0) :
    InWait p q k timed ((s.waitOn p q linked discipline timer).yieldToPartition p k).1 := by
  obtain ⟨l, hperm, hlists, -⟩ := blocked_joins s p q linked discipline timer k
  have hmem : p ∈ ((s.waitOn p q linked discipline timer).yieldToPartition p k).1.waitingProcesses q := by
    rw [hlists, Function.update_self, hperm.mem_iff]
    exact List.mem_cons_self
  refine ⟨?_, fun _ => hmem, fun _ => Or.inr (Or.inr hmem), fun htimed _ => ?_⟩
  · rw [blocked_eq]
    dsimp only
    rw [Function.update_self]
  · obtain ⟨t, rfl, ht⟩ := htimer htimed
    rw [blocked_eq]
    dsimp only
    rw [Function.update_self]
    exact ht

theorem wakeProcess_timeCounter (k : Option WaitKind) (x : Process) :
    (wakeProcess k true x).timeCounter = 0 ∨ (wakeProcess k true x).timeCounter = infiniteTimeValue := by
  by_cases hoff : x.timeCounter = 0 <;> simp [wakeProcess, hoff]

theorem inWait_keeps (p : Nat) {q : WaitList} {k : Context} {timed : Bool} (hcancel : cancelsTimer q = true) :
    Keeps (fun _ _ _ _ => True) p (InWait p q k timed) := by
  refine ⟨fun t t' ht hp h hm => ?_, fun t t' h hrecord hlists _ => ?_⟩
  · obtain ⟨-, hchange⟩ := hp.move hm
    by_cases hin : p ∈ t.waitingProcesses q ∧ p ∉ t'.waitingProcesses q
    · -- it leaves the list, woken
      have hwoken := hm.leaves hp.normal hin.1 hin.2
      have hready : (t'.proc p).processState ≠ .waiting := by
        rw [hwoken]
        exact ProcessState.noConfusion
      refine ⟨hchange.context.trans h.context, fun hw => absurd hw hready, fun _ => ?_,
        fun _ hw => absurd hw hready⟩
      rw [hwoken, hcancel]
      exact (wakeProcess_timeCounter _ _).imp_right Or.inl
    · have hstays : p ∈ t.waitingProcesses q → p ∈ t'.waitingProcesses q := fun hmem =>
        not_not.mp fun hnot => hin ⟨hmem, hnot⟩
      refine ⟨hchange.context.trans h.context, fun hw => hstays (h.listed ?_), fun htimed => ?_, fun htimed => ?_⟩
      · rcases hchange.state with hsame | hready
        · rwa [hsame] at hw
        · rw [hready] at hw
          cases hw
      · have hcases := h.timer htimed
        generalize t.proc p = x at hchange hcases
        generalize t'.proc p = y at hchange ⊢
        cases hchange with
        | same => exact hcases.imp_right (Or.imp_right hstays)
        | touch h => exact h.timeCounter ▸ hcases.imp_right (Or.imp_right hstays)
        | wake q' rest hlist =>
            rcases hcases with hoff | hinf | hmem
            · exact Or.inl (by simp [wakeProcess, hoff])
            · exact Or.inr (Or.inl (by simp [wakeProcess, hinf]))
            · exact Or.inr (Or.inr (hstays hmem))
        | release hdue =>
            rw [checkAndRelease_timeCounter]
            exact hcases.imp_right (Or.imp_right hstays)
        | timeOut hdue =>
            rw [checkTimeouts_of_due hdue]
            exact Or.inl rfl
      · have hcounting := h.counting htimed
        generalize t.proc p = x at hchange hcounting
        generalize t'.proc p = y at hchange ⊢
        cases hchange with
        | same => exact hcounting
        | touch h => rwa [h.timeCounter, h.processState]
        | wake q' rest hlist => exact fun hw => (nomatch hw)
        | release hdue =>
            rw [checkAndRelease_of_due hdue]
            exact fun hw => (nomatch hw)
        | timeOut hdue =>
            rw [checkTimeouts_of_due hdue]
            exact fun hw => (nomatch hw)
  · refine ⟨by rw [hrecord]; exact h.context, fun hw => ?_, fun htimed => ?_, fun htimed => ?_⟩
    · rw [hlists]
      exact h.listed (by rwa [hrecord] at hw)
    · rw [hrecord, hlists]
      exact h.timer htimed
    · rw [hrecord]
      exact h.counting htimed

theorem waitEnded_keeps (p : Nat) {k : Context} {timed : Bool} :
    Keeps (fun _ _ _ _ => True) p (WaitEnded p k timed) := by
  refine ⟨fun t t' ht hp h hm => ?_, fun t t' h hrecord _ _ => ?_⟩
  · obtain ⟨-, hchange⟩ := hp.move hm
    refine ⟨hchange.context.trans h.context, ?_, fun htimed => ?_⟩
    · rcases hchange.state with hsame | hready
      · exact hsame.trans h.ready
      · exact hready
    · have hinf := h.timer htimed
      generalize t.proc p = x at hchange hinf
      generalize t'.proc p = y at hchange ⊢
      cases hchange with
      | same => exact hinf
      | touch h => exact h.timeCounter.trans hinf
      | wake q rest hlist => simp [wakeProcess, hinf]
      | release hdue => exact (checkAndRelease_timeCounter _ _).trans hinf
      | timeOut hdue => exact absurd hinf hdue.2.2
  · exact ⟨by rw [hrecord]; exact h.context, by rw [hrecord]; exact h.ready, fun htimed => by
      rw [hrecord]
      exact h.timer htimed⟩

/-- A wait that a waker of its list ends. -/
theorem InWait.ended {q : WaitList} {k : Context} {timed : Bool} (h : InWait p q k timed s) (hp : Passive p s)
    (htimer : timed = true → (s.proc p).timeCounter ≠ 0) (hrecord : s'.proc p
      = if p ∈ s.waitingProcesses q then wakeProcess q.kind true (s.proc p) else s.proc p) :
    WaitEnded p k timed s' := by
  by_cases hin : p ∈ s.waitingProcesses q
  · rw [if_pos hin] at hrecord
    refine ⟨by rw [hrecord]; exact h.context, by rw [hrecord]; rfl, fun htimed => ?_⟩
    rw [hrecord]
    exact if_pos ⟨rfl, htimer htimed⟩
  · rw [if_neg hin] at hrecord
    refine ⟨by rw [hrecord]; exact h.context, ?_, fun htimed => ?_⟩
    · rw [hrecord]
      exact hp.rests.resolve_left fun hw => hin (h.listed hw)
    · rw [hrecord]
      exact ((h.timer htimed).resolve_left (htimer htimed)).resolve_right hin

/-- Where a process that does not execute has one executing. -/
theorem Passive.process (h : Passive p s) (hsound : Sound s) (hrun : Running s) : s.ctl = .process := by
  refine hrun.resolve_right fun hmain => ?_
  have hstarting := hsound.main hmain
  rw [Starting, h.normal] at hstarting
  rcases hstarting with hs | hs <;> cases hs

/-- A step of another process that wakes whoever is in the list. -/
theorem InWait.wakened {q : WaitList} {k : Context} {timed : Bool} {e : Action} (h : InWait p q k timed s)
    (hp : Passive p s) (hsound : Sound s) (hcancel : cancelsTimer q = true) (hcomm : Communicates e)
    (hloop : e ≠ .loop) (hstep : s.step e = some s') (htimer : timed = true → (s.proc p).timeCounter ≠ 0)
    (hrecord : s'.proc p = if p ∈ s.waitingProcesses q then wakeProcess q.kind true (s.proc p) else s.proc p) :
    Passive p s' ∧ WaitEnded p k timed s' := by
  have hmoves : Moves (communicating fun _ _ _ _ => True) s s' := step_moves hsound.running
    (permits_communicating hcomm hloop fun _ _ _ _ _ _ _ _ _ => trivial) hstep
  obtain ⟨-, hp', -⟩ := (inWait_keeps p hcancel).moves hmoves hsound hp h
  exact ⟨hp', h.ended hp htimer hrecord⟩

/-- While the processes communicate and process `p` does not execute. -/
def CommunicateBesides (p : Nat) (s : Pcb) (e : Action) : Prop := Communicates e ∧ ¬ Calls s p

/-- What the others' moves and steps keep while a process does not execute, every run keeps until it executes
    again, if the service it resumes comes to its end. -/
theorem Passive.run {J K : Pcb → Prop} {ok : Pcb → Action → Prop} {es : List Action} (h : Passive p s)
    (hsound : Sound s) (hJ : J s) (hK : K s) (hkeeps : Keeps (fun _ _ _ _ => True) p J)
    (hok : ∀ u e, ok u e → CommunicateBesides p u e)
    (hsteps : ∀ u e u', Sound u → K u → ok u e → u.step e = some u' → K u')
    (hends : ∀ t u r, Passive p t → J t → Resumes p t (u, r) → Calls u p)
    (hrun : Transition.GuardedRun Pcb.step ok s es s') (hidle : ¬ Calls s' p) :
    Sound s' ∧ Passive p s' ∧ J s' ∧ K s' := by
  have hinv := hrun.invariant (I := fun u => (Sound u ∧ K u) ∧ (Calls u p ∨ Passive p u ∧ J u)) ?_
    ⟨⟨hsound, hK⟩, Or.inr ⟨h, hJ⟩⟩
  · obtain ⟨hp, hJ'⟩ := hinv.2.resolve_left hidle
    exact ⟨hinv.1.1, hp, hJ', hinv.1.2⟩
  · rintro u e u' ⟨⟨hu, hKu⟩, hcase⟩ hguard hstep
    obtain ⟨hcomm, hnot⟩ := hok u e hguard
    obtain ⟨hp, hJu⟩ := hcase.resolve_left hnot
    refine ⟨⟨hu.step hstep, hsteps u e u' hu hKu hguard hstep⟩, ?_⟩
    obtain ⟨⟨o, r⟩, ho, rfl⟩ := Option.map_eq_some_iff.mp hstep
    rcases hp.step hu hJu hkeeps hcomm ho (fun _ _ _ _ _ _ _ _ _ => trivial) with
      hsame | ⟨-, t, -, ht, hJt, -, -, hresumes⟩
    · exact Or.inr hsame
    · exact Or.inl (hends t o r ht hJt hresumes)

/-- A process whose wait has ended is ready until it is resumed, where its service returns with the stores as
    they are then. -/
theorem Passive.returns {t : Pcb} {k : Context} {timed : Bool} {es : List Action} (h : Passive p s)
    (hsound : Sound s) (hended : WaitEnded p k timed s)
    (hends : ∀ v o r, Resumes p v (o, r) → (v.proc p).context = k → Calls o p)
    (hrun : Transition.GuardedRun Pcb.step (CommunicateBesides p) s es t) (hidle : ¬ Calls t p) :
    (t.proc p).processState = .ready ∧ ∀ e t' r, Communicates e → t.stepOutcome e = some (t', r) → Calls t' p →
      ∃ v, WaitEnded p k timed v ∧ v.stores = t.stores ∧ v.conf = t.conf ∧ Resumes p v (t', r) := by
  obtain ⟨ht, hp, hended', -⟩ := h.run (K := fun _ => True) hsound hended trivial (waitEnded_keeps p)
    (fun _ _ h => h) (fun _ _ _ _ _ _ _ => trivial)
    (fun v o r _ hJ hresumes => hends v o r hresumes hJ.context) hrun hidle
  refine ⟨hended'.ready, fun e t' r hcomm hreturn hexecutes => ?_⟩
  rcases hp.step ht hended' (waitEnded_keeps p) hcomm hreturn (fun _ _ _ _ _ _ _ _ _ => trivial) with
    ⟨hp', -⟩ | ⟨-, v, -, -, hendedV, hstores, hmoves, hresumes⟩
  · exact absurd hexecutes hp'.idle
  · exact ⟨v, hendedV, hstores, moves_conf hmoves, hresumes⟩

end Pcb

end UcxArinc
