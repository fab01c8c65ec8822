import UcxArinc.Library.TokenPool
import UcxArinc.Proofs.Communication

set_option autoImplicit false

/-! # Semaphores as pools of tokens

Whatever the processes of a partition do, and however their waits end, each of its semaphores is a pool of
tokens: the steps of the partition are the events of the pool, so no token appears or vanishes, nobody waits
while there is one, and a `FIFO` semaphore serves in the order in which its processes have come. -/

namespace UcxArinc

namespace Pcb

variable {s s' : Pcb} {p i : Nat}

/-- Semaphore `i` as a pool of tokens. -/
def tokenPool (i : Nat) (s : Pcb) : TokenPool.Pool Nat where
  value := (s.res.semaphores i).currentValue
  maximum := (s.res.semaphores i).maximumValue
  waiting := s.waitingProcesses (.semaphore i)

/-- Semaphore `i` serves in the order of arrival. -/
def InArrivalOrder (i : Nat) (s : Pcb) : Prop := (s.res.semaphores i).queuingDiscipline = .fifo

/-- What `WAIT_SEMAPHORE` on semaphore `i` is for the pool, by whether the call returns and what. -/
def waitTokenEvent (s : Pcb) (o : Outcome) : TokenPool.Event Nat :=
  match o.2, s.processCurrent with
  | some r, _ => if r.returnCode = .noError then .taken else .other
  | none, some node => .queued node.data
  | none, none => .other

/-- What `SIGNAL_SEMAPHORE` on semaphore `i` is for the pool: a call that does not return has woken the first
    waiter. -/
def signalTokenEvent (s : Pcb) (i : Nat) (o : Outcome) : TokenPool.Event Nat :=
  match o.2, s.waitingProcesses (.semaphore i) with
  | some r, _ => if r.returnCode = .noError then .returned else .other
  | none, p :: _ => .handed p
  | none, [] => .other

/-- What an action is for the pool of semaphore `i`. -/
def tokenEvent (i : Nat) (s : Pcb) : Action → TokenPool.Event Nat
  | .call (.waitSemaphore semaphoreId timeOut) =>
    if s.findSemaphoreById semaphoreId = some i then
      s.waitTokenEvent (s.waitSemaphore semaphoreId timeOut)
    else .other
  | .call (.signalSemaphore semaphoreId) =>
    if s.findSemaphoreById semaphoreId = some i then
      s.signalTokenEvent i (s.signalSemaphore semaphoreId)
    else .other
  | _ => .other

/-- What the actions of a run are for the pool of semaphore `i`. -/
def tokenEvents (i : Nat) (s : Pcb) (es : List Action) : List (TokenPool.Event Nat) :=
  LabelledRun.labels Pcb.step (tokenEvent i) s es

/-! ## The services -/

/-- A process is inserted somewhere in a list, under `FIFO` at its end. -/
theorem insertedWaiters_split (s : Pcb) (q : WaitList) (discipline : QueuingDiscipline) (p : Nat) :
    ∃ front behind, s.waitingProcesses q = front ++ behind
      ∧ s.insertedWaiters q discipline p = front ++ p :: behind ∧ (discipline = .fifo → behind = []) := by
  cases discipline with
  | fifo => exact ⟨s.waitingProcesses q, [], by simp, by simp [insertedWaiters], fun _ => rfl⟩
  | priority =>
      let before := fun b => decide ((s.proc p).currentPriority ≤ (s.proc b).currentPriority)
      refine ⟨(s.waitingProcesses q).takeWhile before, (s.waitingProcesses q).dropWhile before,
        List.takeWhile_append_dropWhile.symm, ?_, fun h => nomatch h⟩
      simpa [insertedWaiters, before] using List.orderedInsert_eq_take_drop
        (fun a b => (s.proc b).currentPriority < (s.proc a).currentPriority) p (s.waitingProcesses q)

/-- The pool of a semaphore whose caller blocks. -/
theorem tokenPool_blocked (s : Pcb) (linked : Bool) (discipline : QueuingDiscipline) (timer : Option Int)
    (k : Context) : ∃ front behind, s.waitingProcesses (.semaphore i) = front ++ behind
      ∧ tokenPool i ((s.waitOn p (.semaphore i) linked discipline timer).yieldToPartition p k).1
        = { tokenPool i s with waiting := front ++ p :: behind } ∧ (discipline = .fifo → behind = []) := by
  obtain ⟨front, behind, hwaiting, hinserted, hlast⟩ := insertedWaiters_split
    (s.modProc p (blockedRecord (.semaphore i) linked timer)) (.semaphore i) discipline p
  refine ⟨front, behind, hwaiting, ?_, hlast⟩
  rw [blocked_eq, hinserted]
  simp [tokenPool]

theorem waitTokenEvent_refused {t : Pcb} {rc : ReturnCode} (hrc : rc ≠ .noError) :
    s.waitTokenEvent (t.ret rc) = .other := if_neg hrc

theorem waitTokenEvent_blocked {t : Pcb} {node : Node} (hcurrent : s.processCurrent = some node) (k : Context) :
    s.waitTokenEvent (t.yieldToPartition p k) = .queued node.data := by
  simp [waitTokenEvent, yieldToPartition, hcurrent]

theorem waitTokenEvent_crashed {t : Pcb} (hcurrent : s.processCurrent = none) :
    s.waitTokenEvent t.crash = .other := by
  simp [waitTokenEvent, crash, hcurrent]

/-- The pool goes from `s` to the state of an outcome by event `e`. -/
def TokenStep (i : Nat) (s : Pcb) (event : Outcome → TokenPool.Event Nat) (o : Outcome) : Prop :=
  TokenPool.Step (InArrivalOrder i s) (tokenPool i s) (event o) (tokenPool i o.1)

/-- Where the pool is as before, nothing has happened. -/
theorem TokenStep.same {event : Outcome → TokenPool.Event Nat} {o : Outcome} (hevent : event o = .other)
    (hpool : tokenPool i o.1 = tokenPool i s) : TokenStep i s event o := by
  rw [TokenStep, hevent, hpool]
  exact .other (List.Sublist.refl _)

/-- `WAIT_SEMAPHORE` takes a token, is refused, or queues its caller. -/
theorem waitSemaphore_token {semaphoreId timeOut : Int} (hi : s.findSemaphoreById semaphoreId = some i) :
    TokenStep i s s.waitTokenEvent (s.waitSemaphore semaphoreId timeOut) := by
  have hrefused : ∀ rc, rc ≠ .noError → TokenStep i s s.waitTokenEvent (s.ret rc) := fun rc hrc =>
    .same (waitTokenEvent_refused hrc) rfl
  unfold waitSemaphore
  rw [hi]
  refine refused_elim (P := TokenStep i s _) (hrefused _ (by decide)) fun _ => ?_
  unfold withCurrent
  cases hcurrent : s.processCurrent with
  | none => exact .same (waitTokenEvent_crashed hcurrent) rfl
  | some node =>
      have hqueued : ∀ linked timer k, (s.res.semaphores i).currentValue ≤ 0 → TokenStep i s s.waitTokenEvent
          ((s.waitOn node.data (.semaphore i) linked (s.res.semaphores i).queuingDiscipline
            timer).yieldToPartition node.data k) := by
        intro linked timer k hzero
        obtain ⟨front, behind, hwaiting, hpool, hlast⟩ := tokenPool_blocked (i := i) (p := node.data) s linked
          (s.res.semaphores i).queuingDiscipline timer k
        rw [TokenStep, hpool, waitTokenEvent_blocked hcurrent]
        exact .queued hzero hwaiting hlast
      dsimp only
      by_cases hsome : 0 < (s.res.semaphores i).currentValue
      · have htaken : tokenPool i (s.setSemaphore i { s.res.semaphores i with
            currentValue := (s.res.semaphores i).currentValue - 1 })
            = { tokenPool i s with value := (tokenPool i s).value - 1 } := by
          simp [tokenPool, setSemaphore]
        rw [if_pos hsome, TokenStep]
        exact htaken ▸ .taken hsome
      · rw [if_neg hsome]
        refine refused_elim (P := TokenStep i s _) (hrefused _ (by decide)) fun _ => ?_
        refine refused_elim (P := TokenStep i s _) (hrefused _ (by decide)) fun _ => ?_
        split_ifs
        · exact hqueued _ _ _ (not_lt.mp hsome)
        · exact hqueued _ _ _ (not_lt.mp hsome)

/-- `SIGNAL_SEMAPHORE` gives a token back, to the first waiter if there is one, or is refused. -/
theorem signalSemaphore_token {semaphoreId : Int} (hi : s.findSemaphoreById semaphoreId = some i) :
    TokenStep i s (s.signalTokenEvent i) (s.signalSemaphore semaphoreId) := by
  unfold signalSemaphore
  rw [hi]
  refine refused_elim (P := TokenStep i s _) (.same rfl rfl) fun hfull => ?_
  split
  · next hnone =>
      have hreturned : tokenPool i (s.setSemaphore i { s.res.semaphores i with
          currentValue := (s.res.semaphores i).currentValue + 1 })
          = { tokenPool i s with value := (tokenPool i s).value + 1 } := by
        simp [tokenPool, setSemaphore]
      rw [TokenStep]
      exact hreturned ▸ .returned (wakeFirst_eq_none.mp hnone) hfull
  · next woken t hwake =>
      obtain ⟨rest, hlist, ht⟩ := wakeFirst_eq_some hwake
      have hpool : tokenPool i t = { tokenPool i s with waiting := rest } := by
        rw [ht]
        simp [tokenPool, modProc]
      -- whether or not there is a current process, the call does not return
      have hhanded : ∀ o : Outcome, o.2 = none → tokenPool i o.1 = tokenPool i t →
          TokenStep i s (s.signalTokenEvent i) o := by
        intro o hout hsame
        have hevent : s.signalTokenEvent i o = .handed woken := by simp [signalTokenEvent, hout, hlist]
        rw [TokenStep, hevent, hsame, hpool]
        exact .handed hlist
      exact withCurrent_elim (P := TokenStep i s _) (hhanded _ rfl rfl) fun _ _ => hhanded _ rfl rfl

/-! ## Steps -/

/-- The semaphores of `s` are there in `s'` too, but for their values, and a new one has a value in range and
    nobody who waits for it. -/
structure SemaphoresKept (s s' : Pcb) : Prop where
  records : ∀ i < s.res.semaphoreCount, ∃ value,
    s'.res.semaphores i = { s.res.semaphores i with currentValue := value }
  count : s'.res.semaphoreCount = s.res.semaphoreCount
    ∨ s'.res.semaphoreCount = s.res.semaphoreCount + 1
      ∧ TokenPool.Sound (tokenPool s.res.semaphoreCount s')

theorem SemaphoresKept.count_le (h : SemaphoresKept s s') : s.res.semaphoreCount ≤ s'.res.semaphoreCount := by
  rcases h.count with hsame | ⟨hnew, -⟩ <;> omega

theorem SemaphoresKept.ofStores (h : s'.stores.semaphores = s.stores.semaphores) : SemaphoresKept s s' :=
  ⟨fun i _ => ⟨_, congrFun (congrArg Prod.fst h) i⟩, Or.inl (congrArg Prod.snd h)⟩

theorem SemaphoresKept.setValue (index : Nat) (value : Int) :
    SemaphoresKept s (s.setSemaphore index { s.res.semaphores index with currentValue := value }) := by
  refine ⟨fun i _ => ?_, Or.inl rfl⟩
  by_cases hi : i = index
  · exact ⟨value, by rw [hi]; exact Function.update_self _ _ _⟩
  · exact ⟨_, Function.update_of_ne hi _ _⟩

theorem waitSemaphore_kept (semaphoreId timeOut : Int) :
    SemaphoresKept s (s.waitSemaphore semaphoreId timeOut).1 := by
  have hret : ∀ rc, SemaphoresKept s (s.ret rc).1 := fun _ => .ofStores rfl
  unfold waitSemaphore
  split
  · exact hret _
  · next index _ =>
      refine refused_elim (P := fun o => SemaphoresKept s o.1) (hret _) fun _ => ?_
      refine withCurrent_elim (P := fun o => SemaphoresKept s o.1) (.ofStores rfl) fun node _ => ?_
      dsimp only
      split_ifs
      · exact .setValue _ _
      · exact hret _
      · exact hret _
      · exact .ofStores (congrArg Stores.semaphores (blocked_stores _ _ _ _ _ _))
      · exact .ofStores (congrArg Stores.semaphores (blocked_stores _ _ _ _ _ _))

theorem signalSemaphore_kept (semaphoreId : Int) : SemaphoresKept s (s.signalSemaphore semaphoreId).1 := by
  have hret : ∀ rc, SemaphoresKept s (s.ret rc).1 := fun _ => .ofStores rfl
  unfold signalSemaphore
  split
  · exact hret _
  · next index _ =>
      refine refused_elim (P := fun o => SemaphoresKept s o.1) (hret _) fun _ => ?_
      split
      · exact .setValue _ _
      · next woken t hwake =>
          have hstores := congrArg Stores.semaphores (wakeFirst_stores hwake)
          exact withCurrent_elim (P := fun o => SemaphoresKept s o.1) (.ofStores hstores) fun _ _ => .ofStores hstores

theorem createSemaphore_kept (name : Name) (currentValue maximumValue discipline : Int) :
    SemaphoresKept s (s.createSemaphore name currentValue maximumValue discipline).1 := by
  have hret : ∀ rc, SemaphoresKept s (s.ret rc).1 := fun _ => .ofStores rfl
  unfold createSemaphore
  refine refused_elim (P := fun o => SemaphoresKept s o.1) (hret _) fun _ => ?_
  refine refused_elim (P := fun o => SemaphoresKept s o.1) (hret _) fun _ => ?_
  refine refused_elim (P := fun o => SemaphoresKept s o.1) (hret _) fun hneg => ?_
  refine refused_elim (P := fun o => SemaphoresKept s o.1) (hret _) fun _ => ?_
  refine refused_elim (P := fun o => SemaphoresKept s o.1) (hret _) fun hle => ?_
  split
  · exact hret _
  · refine refused_elim (P := fun o => SemaphoresKept s o.1) (hret _) fun _ => ?_
    refine ⟨fun i hi => ⟨_, Function.update_of_ne (Nat.ne_of_lt hi) _ _⟩, Or.inr ⟨rfl, ?_⟩⟩
    constructor
    · simpa [tokenPool, freshWaitList_eq, setSemaphore] using hneg
    · simpa [tokenPool, freshWaitList_eq, setSemaphore] using hle
    · simp [tokenPool, freshWaitList_eq]

/-- A step keeps the semaphores there are. -/
theorem step_semaphores {e : Action} (hstep : s.step e = some s') : SemaphoresKept s s' := by
  have hstores := congrArg Stores.semaphores (step_stores hstep)
  cases e with
  | call service =>
      obtain ⟨-, rfl⟩ := call_eq_some hstep
      cases service with
      | waitSemaphore semaphoreId timeOut => exact waitSemaphore_kept semaphoreId timeOut
      | signalSemaphore semaphoreId => exact signalSemaphore_kept semaphoreId
      | createSemaphore name currentValue maximumValue discipline =>
          exact createSemaphore_kept name currentValue maximumValue discipline
      | _ => exact .ofStores hstores
  | _ => exact .ofStores hstores

/-- The services of the other semaphores leave the value of semaphore `i` alone. -/
theorem waitSemaphore_other {semaphoreId timeOut : Int} (hi : s.findSemaphoreById semaphoreId ≠ some i) :
    (s.waitSemaphore semaphoreId timeOut).1.res.semaphores i = s.res.semaphores i := by
  unfold waitSemaphore
  cases hfind : s.findSemaphoreById semaphoreId with
  | none => rfl
  | some j =>
      have hne : i ≠ j := by
        rintro rfl
        exact hi hfind
      refine refused_elim (P := fun o => o.1.res.semaphores i = s.res.semaphores i) rfl fun _ => ?_
      refine withCurrent_elim (P := fun o => o.1.res.semaphores i = s.res.semaphores i) rfl fun node _ => ?_
      dsimp only
      split_ifs
      · exact Function.update_of_ne hne _ _
      · rfl
      · rfl
      · rw [blocked_eq]
      · rw [blocked_eq]

theorem signalSemaphore_other {semaphoreId : Int} (hi : s.findSemaphoreById semaphoreId ≠ some i) :
    (s.signalSemaphore semaphoreId).1.res.semaphores i = s.res.semaphores i := by
  unfold signalSemaphore
  cases hfind : s.findSemaphoreById semaphoreId with
  | none => rfl
  | some j =>
      have hne : i ≠ j := by
        rintro rfl
        exact hi hfind
      refine refused_elim (P := fun o => o.1.res.semaphores i = s.res.semaphores i) rfl fun _ => ?_
      split
      · exact Function.update_of_ne hne _ _
      · next woken t hwake =>
          have hkept : t.res.semaphores i = s.res.semaphores i :=
            congrArg (fun x => x.semaphores.1 i) (wakeFirst_stores hwake)
          exact withCurrent_elim (P := fun o => o.1.res.semaphores i = s.res.semaphores i) hkept fun _ _ => hkept

/-- A new semaphore has the number after the last. -/
theorem createSemaphore_other {name : Name} {currentValue maximumValue discipline : Int}
    (hi : i < s.res.semaphoreCount) :
    (s.createSemaphore name currentValue maximumValue discipline).1.res.semaphores i = s.res.semaphores i := by
  unfold createSemaphore
  iterate 5 refine refused_elim (P := fun o => o.1.res.semaphores i = s.res.semaphores i) rfl fun _ => ?_
  split
  · rfl
  · refine refused_elim (P := fun o => o.1.res.semaphores i = s.res.semaphores i) rfl fun _ => ?_
    exact Function.update_of_ne (Nat.ne_of_lt hi) _ _

/-- A call of `WAIT_SEMAPHORE` or `SIGNAL_SEMAPHORE` that finds semaphore `i`. -/
def UsesSemaphore (s : Pcb) (i : Nat) : Action → Prop
  | .call (.waitSemaphore semaphoreId _) | .call (.signalSemaphore semaphoreId) =>
    s.findSemaphoreById semaphoreId = some i
  | _ => False

/-- Other steps leave the record of a semaphore alone, and nobody begins to wait for it. -/
theorem otherStep_token {e : Action} (hsound : Sound s) (hi : i < s.res.semaphoreCount)
    (hother : ¬ UsesSemaphore s i e) (hstep : s.step e = some s') :
    s'.res.semaphores i = s.res.semaphores i
      ∧ (s'.waitingProcesses (.semaphore i)).Sublist (s.waitingProcesses (.semaphore i)) := by
  constructor
  · have hstores := congrArg Stores.semaphores (step_stores hstep)
    have hsame : s'.stores.semaphores = s.stores.semaphores →
        s'.res.semaphores i = s.res.semaphores i := fun heq => congrArg (fun x => x.1 i) heq
    cases e with
    | call service =>
        obtain ⟨-, rfl⟩ := call_eq_some hstep
        cases service with
        | waitSemaphore semaphoreId timeOut => exact waitSemaphore_other hother
        | signalSemaphore semaphoreId => exact signalSemaphore_other hother
        | createSemaphore name currentValue maximumValue discipline => exact createSemaphore_other hi
        | _ => exact hsame hstores
    | _ => exact hsame hstores
  · refine sublist_of_moves (step_moves hsound.running (permits_onlyBlocks ?_) hstep)
    rintro service rfl c - t - q hblocks - rfl
    cases service with
    | waitSemaphore semaphoreId timeOut =>
        obtain ⟨-, j, hj, -, heq⟩ := hblocks
        cases heq
        exact hother hj
    | signalSemaphore => exact hblocks
    | _ => simp [Blocks] at hblocks

/-- A step of the partition is an event of the pool of each semaphore there is. -/
theorem step_token {e : Action} (hsound : Sound s) (hi : i < s.res.semaphoreCount)
    (hstep : s.step e = some s') :
    TokenPool.Step (InArrivalOrder i s) (tokenPool i s) (tokenEvent i s e) (tokenPool i s') := by
  by_cases huses : UsesSemaphore s i e
  · cases e with
    | call service =>
        obtain ⟨-, rfl⟩ := call_eq_some hstep
        cases service with
        | waitSemaphore semaphoreId timeOut =>
            have hfind : s.findSemaphoreById semaphoreId = some i := huses
            rw [tokenEvent, if_pos hfind]
            exact waitSemaphore_token hfind
        | signalSemaphore semaphoreId =>
            have hfind : s.findSemaphoreById semaphoreId = some i := huses
            rw [tokenEvent, if_pos hfind]
            exact signalSemaphore_token hfind
        | _ => exact huses.elim
    | _ => exact huses.elim
  · obtain ⟨hrecord, hlist⟩ := otherStep_token hsound hi huses hstep
    have hevent : tokenEvent i s e = .other := by
      unfold tokenEvent
      split
      · exact if_neg huses
      · exact if_neg huses
      · rfl
    have hpool : tokenPool i s' = { tokenPool i s with waiting := s'.waitingProcesses (.semaphore i) } := by
      simp [tokenPool, hrecord]
    rw [hevent, hpool]
    exact .other hlist

/-! ## Runs -/

/-- Every semaphore there is is sound as a pool of tokens. -/
def SemaphoresSound (s : Pcb) : Prop := ∀ i < s.res.semaphoreCount, TokenPool.Sound (tokenPool i s)

/-- Every step keeps the semaphores sound. -/
theorem SemaphoresSound.step {e : Action} (h : SemaphoresSound s) (hsound : Sound s)
    (hstep : s.step e = some s') : SemaphoresSound s' := by
  intro i hi
  by_cases hold : i < s.res.semaphoreCount
  · exact (step_token hsound hold hstep).sound (h i hold)
  · rcases (step_semaphores hstep).count with hcount | ⟨hcount, hnew⟩
    · exact absurd (hcount ▸ hi) hold
    · obtain rfl : i = s.res.semaphoreCount := by omega
      exact hnew

/-- A run of the partition is a run of the pool of each semaphore there is. -/
theorem run_tokens {es : List Action} (hsound : Sound s) (hi : i < s.res.semaphoreCount)
    (hrun : Transition.run Pcb.step s es = some s') :
    TokenPool.Run (InArrivalOrder i s) (tokenPool i s) (tokenEvents i s es) (tokenPool i s') := by
  refine (LabelledRun.run_of_run (I := fun u => Sound u ∧ i < u.res.semaphoreCount
    ∧ InArrivalOrder i u = InArrivalOrder i s) hrun ?_ ⟨hsound, hi, rfl⟩).2
  rintro u e u' ⟨hu, hiu, horder⟩ hstep
  have hkept := step_semaphores hstep
  obtain ⟨value, hrecord⟩ := hkept.records i hiu
  refine ⟨⟨hu.step hstep, hiu.trans_le hkept.count_le, ?_⟩, horder ▸ step_token hu hiu hstep⟩
  rw [← horder, InArrivalOrder, InArrivalOrder, hrecord]

theorem semaphoresSound_of_run (period identifier : Int) (conf : PartitionConf) (maxErrors : Nat) (krnl : Krnl)
    (memory : Nat → Process) (lastTick : Nat) {es : List Action}
    (hrun : Transition.run Pcb.step
      (partitionInit period identifier conf maxErrors krnl memory lastTick).startPartitionOs es = some s) :
    Sound s ∧ SemaphoresSound s := by
  refine Transition.run_invariant (I := fun u => Sound u ∧ SemaphoresSound u) hrun ?_
    ⟨sound_startPartitionOs period identifier conf maxErrors krnl memory lastTick, ?_⟩
  · rintro u e u' ⟨hu, hsems⟩ hstep
    exact ⟨hu.step hstep, hsems.step hu hstep⟩
  · intro i hi
    have hstores := congrArg (fun x => x.semaphores.2)
      (startPartitionOs_stores (partitionInit period identifier conf maxErrors krnl memory lastTick))
    have hnone : (partitionInit period identifier conf maxErrors krnl memory
        lastTick).startPartitionOs.res.semaphoreCount = 0 := hstores
    omega

/-- In every state a partition reaches, each semaphore has a value between 0 and its maximum, nobody waits for it
    while the value is positive, and its counter counts who waits. From there on, whatever is called and however
    waits end, value and grants add up to the value there was and the signals accepted, and a `FIFO` semaphore
    has handed its tokens to processes in the order in which they have come. -/
theorem semaphores_keep_tokens (period identifier : Int) (conf : PartitionConf) (maxErrors : Nat) (krnl : Krnl)
    (memory : Nat → Process) (lastTick : Nat) {es es' : List Action}
    (hrun : Transition.run Pcb.step
      (partitionInit period identifier conf maxErrors krnl memory lastTick).startPartitionOs es = some s)
    (hrun' : Transition.run Pcb.step s es' = some s') (hi : i < s.res.semaphoreCount) :
    TokenPool.Sound (tokenPool i s)
      ∧ s.waitingCount (.semaphore, i) = (s.waitingProcesses (.semaphore i)).length
      ∧ TokenPool.Run (InArrivalOrder i s) (tokenPool i s) (tokenEvents i s es') (tokenPool i s')
      ∧ (s'.res.semaphores i).currentValue + ((tokenEvents i s es').map TokenPool.Event.grants).sum
        = (s.res.semaphores i).currentValue + ((tokenEvents i s es').map TokenPool.Event.signals).sum
      ∧ (InArrivalOrder i s →
        ((tokenEvents i s es').filterMap TokenPool.Event.served ++ s'.waitingProcesses (.semaphore i)).Sublist
          (s.waitingProcesses (.semaphore i) ++ (tokenEvents i s es').filterMap TokenPool.Event.arrival)) := by
  obtain ⟨hsound, hsems⟩ := semaphoresSound_of_run period identifier conf maxErrors krnl memory lastTick hrun
  obtain ⟨-, hqueues⟩ := queues_of_run period identifier conf maxErrors krnl memory lastTick hrun
  have hpool := run_tokens hsound hi hrun'
  refine ⟨hsems i hi, ?_, hpool, hpool.conserves, hpool.in_order⟩
  rw [hqueues.counted]
  simp [waitersIn, listsOf]

/-- Two processes and a semaphore with one token of at most two, of which process 0 executes. -/
def semaphoreUsers : List Action :=
  [.loop, .call (.createSemaphore "S".toList 1 2 0),
    .call (.createProcess (aperiodicProcess "A".toList 50)),
    .call (.createProcess (aperiodicProcess "B".toList 40)), .call (.start 1), .call (.start 2),
    .call (.setPartitionMode 3), .loop]

/-- Process 0 takes the token and waits for another, process 1 signals twice. -/
def semaphoreUse : List Action :=
  [.call (.waitSemaphore 1 0), .call (.waitSemaphore 1 infiniteTimeValue), .loop, .call (.signalSemaphore 1),
    .loop, .call (.signalSemaphore 1)]

theorem semaphores_keep_tokens_used : ∃ s s', Transition.run Pcb.step (defaultPartition 1) semaphoreUsers = some s
    ∧ Transition.run Pcb.step s semaphoreUse = some s'
    ∧ tokenEvents 0 s semaphoreUse = [.taken, .queued 0, .other, .handed 0, .other, .returned]
    ∧ (s'.res.semaphores 0).currentValue + 2 = (s.res.semaphores 0).currentValue + 2 := by
  have hboth : ((Transition.run Pcb.step (defaultPartition 1) semaphoreUsers).bind fun s =>
      (Transition.run Pcb.step s semaphoreUse).map fun _ => (s.res.semaphoreCount, tokenEvents 0 s semaphoreUse))
      = some (1, [.taken, .queued 0, .other, .handed 0, .other, .returned]) := by decide
  obtain ⟨s, hs, hboth⟩ := Option.bind_eq_some_iff.mp hboth
  obtain ⟨s', hs', hfields⟩ := Option.map_eq_some_iff.mp hboth
  obtain ⟨hcount, hevents⟩ := Prod.mk.inj hfields
  obtain ⟨-, -, -, hconserves, -⟩ := semaphores_keep_tokens 50 1 defaultPartitionConf 10 defaultKrnl
    (fun _ => zeroProcess) 0 (i := 0) hs hs' (by omega)
  rw [hevents] at hconserves
  exact ⟨s, s', hs, hs', hevents, hconserves⟩

end Pcb

end UcxArinc
