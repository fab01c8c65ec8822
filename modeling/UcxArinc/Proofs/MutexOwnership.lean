import UcxArinc.Proofs.Owners

set_option autoImplicit false

/-! # Who owns a mutex

The owner of a mutex is kept in its record and in the record of a process, and its waiters in a list
with a counter beside it. `Owners` says that the records agree and `WaitersOk` that the list holds
exactly processes that wait for it; every move of a partition whose processes are aperiodic and wait for
nothing but mutexes keeps both. -/

namespace UcxArinc

namespace Pcb

variable {A : Permit} {s s' : Pcb} {giveBack prioritize : Nat → Prop}

/-- Processes are aperiodic, wait for mutexes without a time-out, and raise no error; nobody is stopped
    by another process or started with a delay. `giveBack` says who may give a mutex back, `prioritize` who
    may get another priority. -/
def mutexPermit (giveBack prioritize : Nat → Prop) : Permit where
  acquire _ := True
  giveBack := giveBack
  block _ _ q timer := (∃ i, q = .mutex i) ∧ timer = none
  sleep _ _ _ _ := False
  wake _ := True
  grant _ := True
  suspend _ _ := True
  resume _ _ := True
  start _ delayed := delayed = false
  stop _ _ := False
  quit _ _ := True
  expire _ _ := True
  prioritize := prioritize
  requeue _ := True
  port _ _ := False
  create period := period = infiniteTimeValue
  error _ := False
  ignore _ _ := False
  dispatch := True
  mode m := m = .normal

/-! ## The waiters -/

/-- The tick leaves the process alone. -/
structure Untimed (x : Process) : Prop where
  period : x.attributes.period = infiniteTimeValue
  delay : x.savedInitDelay = 0
  timer : x.timeCounter = 0

/-- Process `p` waits for mutex `i`. -/
structure MutexWaiter (s : Pcb) (i p : Nat) : Prop where
  allocated : p < s.nextProc
  index_lt : i < s.res.mutexCount
  waits : (s.proc p).processState = .waiting
  pointer : (s.proc p).waiting .mutex = some i
  owns : (s.proc p).ownedMutexId = noMutexOwned
  notSuspended : (s.proc p).isSuspended = false
  notHandler : s.errorHandlerProcess ≠ some p

structure WaitersOk (s : Pcb) : Prop where
  untimed : ∀ p, p < s.nextProc → Untimed (s.proc p)
  suspended : ∀ p, p < s.nextProc → (s.proc p).isSuspended = true →
    (s.proc p).processState = .waiting ∨ s.errorHandlerProcess = some p
  waiter : ∀ i p, p ∈ s.waitingProcesses (.mutex i) → MutexWaiter s i p
  nodup : ∀ i, (s.waitingProcesses (.mutex i)).Nodup
  count : ∀ i, s.waitingCount (.mutex, i) = (s.waitingProcesses (.mutex i)).length
  others : ∀ q, (∀ i, q ≠ .mutex i) → s.waitingProcesses q = []
  starting : Starting s → ∀ i, s.waitingProcesses (.mutex i) = []
  notIdle : s.status.operatingMode ≠ .idle

/-- Record `y` of process `p` keeps the invariant. -/
structure Steady (s : Pcb) (p : Nat) (y : Process) : Prop where
  untimed : Untimed y
  suspended : y.isSuspended = true → y.processState = .waiting ∨ s.errorHandlerProcess = some p
  waiter : ∀ i, p ∈ s.waitingProcesses (.mutex i) → y.processState = .waiting
    ∧ y.waiting .mutex = some i ∧ y.ownedMutexId = noMutexOwned ∧ y.isSuspended = false

theorem Steady.refl (h : WaitersOk s) {p : Nat} (hp : p < s.nextProc) : Steady s p (s.proc p) :=
  ⟨h.untimed p hp, h.suspended p hp, fun i hi =>
    ⟨(h.waiter i p hi).waits, (h.waiter i p hi).pointer, (h.waiter i p hi).owns,
      (h.waiter i p hi).notSuspended⟩⟩

/-- A record in which nothing the invariant speaks of has changed. -/
theorem Steady.same {x y : Process} {p : Nat} (h : Steady s p x) (hattributes : y.attributes = x.attributes)
    (hdelay : y.savedInitDelay = x.savedInitDelay) (htimer : y.timeCounter = x.timeCounter)
    (hstate : y.processState = x.processState) (hsuspended : y.isSuspended = x.isSuspended)
    (hwaiting : y.waiting = x.waiting) (howned : y.ownedMutexId = x.ownedMutexId) : Steady s p y := by
  obtain ⟨⟨hperiod, hd, ht⟩, hs, hw⟩ := h
  refine ⟨⟨by rw [hattributes, hperiod], by rw [hdelay, hd], by rw [htimer, ht]⟩, ?_, ?_⟩
  · rw [hsuspended, hstate]
    exact hs
  · rw [hstate, hwaiting, howned, hsuspended]
    exact hw

/-- A process that does not wait for a mutex. -/
theorem Steady.of_not_waiting {p : Nat} {y : Process} (h : WaitersOk s) (huntimed : Untimed y)
    (hsuspended : y.isSuspended = true →
      y.processState = .waiting ∨ s.errorHandlerProcess = some p)
    (hnot : ∀ i, ¬ MutexWaiter s i p) : Steady s p y :=
  ⟨huntimed, hsuspended, fun i hi => absurd (h.waiter i p hi) (hnot i)⟩

/-- The same waiters, with records that keep the invariant. -/
theorem WaitersOk.congr (h : WaitersOk s) (hnext : s'.nextProc = s.nextProc)
    (hhandler : s'.errorHandlerProcess = s.errorHandlerProcess)
    (hlists : s'.waitingProcesses = s.waitingProcesses)
    (hcounts : s'.waitingCount = s.waitingCount) (hmutexes : s.res.mutexCount ≤ s'.res.mutexCount)
    (hmode : s'.status.operatingMode = s.status.operatingMode)
    (hproc : ∀ p, p < s.nextProc → Steady s p (s'.proc p)) : WaitersOk s' := by
  refine ⟨fun p hp => ?_, fun p hp => ?_, fun i p hi => ?_, ?_, ?_, ?_, ?_, hmode ▸ h.notIdle⟩
  · exact (hproc p (hnext ▸ hp)).untimed
  · rw [hhandler]
    exact (hproc p (hnext ▸ hp)).suspended
  · rw [hlists] at hi
    obtain ⟨hp, hindex, -, -, -, -, hnot⟩ := h.waiter i p hi
    obtain ⟨hwaits, hpointer, howns, hsuspended⟩ := (hproc p hp).waiter i hi
    exact ⟨hnext ▸ hp, hindex.trans_le hmutexes, hwaits, hpointer, howns, hsuspended,
      hhandler ▸ hnot⟩
  · rw [hlists]
    exact h.nodup
  · rw [hlists, hcounts]
    exact h.count
  · rw [hlists]
    exact h.others
  · rw [hlists, Starting, hmode]
    exact h.starting

/-- A rewritten record that keeps the invariant. -/
theorem WaitersOk.modProc (h : WaitersOk s) {p : Nat} {f : Process → Process}
    (hf : p < s.nextProc → Steady s p (f (s.proc p))) : WaitersOk (s.modProc p f) := by
  refine h.congr rfl rfl rfl rfl le_rfl rfl fun p' hp' => ?_
  by_cases heq : p' = p
  · subst heq
    rw [modProc_proc_self]
    exact hf hp'
  · rw [modProc_proc_of_ne heq]
    exact .refl h hp'

/-- The records are the same, and so is everything the invariant speaks of. -/
theorem WaitersOk.same (h : WaitersOk s) (hproc : s'.proc = s.proc) (hnext : s'.nextProc = s.nextProc)
    (hhandler : s'.errorHandlerProcess = s.errorHandlerProcess)
    (hlists : s'.waitingProcesses = s.waitingProcesses)
    (hcounts : s'.waitingCount = s.waitingCount) (hmutexes : s.res.mutexCount ≤ s'.res.mutexCount)
    (hmode : s'.status.operatingMode = s.status.operatingMode) : WaitersOk s' := by
  refine h.congr hnext hhandler hlists hcounts hmutexes hmode fun p hp => ?_
  rw [hproc]
  exact .refl h hp

/-! ## Blocking and handing over -/

/-- The caller joins the waiters of a mutex. -/
theorem WaitersOk.block (h : WaitersOk s) {p i : Nat} {discipline : QueuingDiscipline} {k : Context}
    (hp : p < s.nextProc) (hi : i < s.res.mutexCount) (hactive : (s.proc p).processState ≠ .waiting)
    (hstart : ¬ Starting s) (hown : (s.proc p).ownedMutexId = noMutexOwned)
    (hhandler : s.errorHandlerProcess ≠ some p) :
    WaitersOk ((s.waitOn p (.mutex i) true discipline none).yieldToPartition p k).1 := by
  rw [blocked_eq]
  have hnot : ∀ j, p ∉ s.waitingProcesses (.mutex j) := fun j hj =>
    hactive (h.waiter j p hj).waits
  have hsuspended : (s.proc p).isSuspended = false := by
    by_contra hsus
    rcases h.suspended p hp (by simpa using hsus) with hw | heh
    · exact hactive hw
    · exact hhandler heh
  have hperm := insertedWaiters_perm (s.modProc p (blockedRecord (.mutex i) true none)) (.mutex i)
    discipline p
  generalize (s.modProc p (blockedRecord (.mutex i) true none)).insertedWaiters (.mutex i) discipline p
    = inserted at hperm
  have hrest : ∀ j, j ≠ i → Function.update s.waitingProcesses (.mutex i) inserted (.mutex j)
      = s.waitingProcesses (.mutex j) := fun j hj =>
    Function.update_of_ne (fun heq => hj (WaitList.mutex.inj heq)) _ _
  have hproc : ∀ p', p' ≠ p → Function.update s.proc p
      { blockedRecord (.mutex i) true none (s.proc p) with context := k } p' = s.proc p' :=
    fun p' hp' => Function.update_of_ne hp' _ _
  have hself : Function.update s.proc p
      { blockedRecord (.mutex i) true none (s.proc p) with context := k } p
      = { blockedRecord (.mutex i) true none (s.proc p) with context := k } :=
    Function.update_self _ _ _
  -- the old waiters keep their records
  have hold : ∀ j p', p' ∈ s.waitingProcesses (.mutex j) → p' ≠ p := fun j p' hj heq =>
    hnot j (heq ▸ hj)
  refine ⟨fun p' hp' => ?_, fun p' hp' => ?_, fun j p' hj => ?_, fun j => ?_, fun j => ?_,
    fun q hq => ?_, fun hs => absurd hs hstart, h.notIdle⟩
  · by_cases heq : p' = p
    · dsimp only
      rw [heq, hself]
      exact ⟨(h.untimed p hp).period, (h.untimed p hp).delay, (h.untimed p hp).timer⟩
    · dsimp only
      rw [hproc p' heq]
      exact h.untimed p' hp'
  · by_cases heq : p' = p
    · dsimp only
      rw [heq, hself]
      exact fun _ => Or.inl rfl
    · dsimp only
      rw [hproc p' heq]
      exact h.suspended p' hp'
  · have hcase : (j = i ∧ p' = p) ∨ p' ∈ s.waitingProcesses (.mutex j) := by
      dsimp only at hj
      by_cases hji : j = i
      · subst hji
        rw [Function.update_self] at hj
        rcases List.mem_cons.mp (hperm.mem_iff.mp hj) with heq | hin
        · exact Or.inl ⟨rfl, heq⟩
        · exact Or.inr hin
      · rw [hrest j hji] at hj
        exact Or.inr hj
    rcases hcase with ⟨rfl, rfl⟩ | hin
    · refine ⟨hp, hi, ?_, ?_, ?_, ?_, hhandler⟩
      all_goals
        dsimp only
        rw [hself]
      · rfl
      · simp [blockedRecord, WaitList.kind, WaitList.index]
      · exact hown
      · exact hsuspended
    · obtain ⟨ha, hb, hc, hd, he, hf, hg⟩ := h.waiter j p' hin
      refine ⟨ha, hb, ?_, ?_, ?_, ?_, hg⟩
      all_goals
        dsimp only
        rw [hproc p' (hold j p' hin)]
        assumption
  · by_cases hji : j = i
    · subst hji
      dsimp only
      rw [Function.update_self]
      exact (hperm.nodup_iff).mpr (List.nodup_cons.mpr ⟨hnot j, h.nodup j⟩)
    · dsimp only
      rw [hrest j hji]
      exact h.nodup j
  · by_cases hji : j = i
    · subst hji
      dsimp only
      rw [Function.update_self, hperm.length_eq, List.length_cons]
      unfold countAfter
      dsimp only [WaitList.kind, WaitList.index]
      rw [Function.update_self, h.count j]
      push_cast
      rfl
    · dsimp only
      rw [hrest j hji, countAfter_of_ne (Or.inr fun heq => hji heq.symm)]
      exact h.count j
  · dsimp only
    rw [Function.update_of_ne (hq i)]
    exact h.others q hq

/-- The first waiter of a mutex is woken. -/
theorem WaitersOk.wake (h : WaitersOk s) {i p : Nat} {cancel : Bool}
    (hwake : s.wakeFirst (.mutex i) cancel = some (p, s')) : WaitersOk s' := by
  obtain ⟨rest, hlist, rfl⟩ := wakeFirst_eq_some hwake
  have hp := h.waiter i p (by rw [hlist]; exact List.mem_cons_self)
  have hnodup := h.nodup i
  rw [hlist, List.nodup_cons] at hnodup
  have hrest : ∀ j, j ≠ i → Function.update s.waitingProcesses (.mutex i) rest (.mutex j)
      = s.waitingProcesses (.mutex j) := fun j hj =>
    Function.update_of_ne (fun heq => hj (WaitList.mutex.inj heq)) _ _
  have hself : Function.update s.waitingProcesses (.mutex i) rest (.mutex i) = rest :=
    Function.update_self _ _ _
  -- a process waits for one mutex only
  have hremains : ∀ j p', p' ∈ Function.update s.waitingProcesses (.mutex i) rest (.mutex j) →
      p' ∈ s.waitingProcesses (.mutex j) ∧ p' ≠ p := by
    intro j p' hj
    by_cases hji : j = i
    · subst hji
      rw [hself] at hj
      exact ⟨by rw [hlist]; exact List.mem_cons_of_mem _ hj, fun heq => hnodup.1 (heq ▸ hj)⟩
    · rw [hrest j hji] at hj
      refine ⟨hj, fun heq => hji ?_⟩
      have hpointer := (h.waiter j p' hj).pointer
      rw [heq, hp.pointer] at hpointer
      exact (Option.some.inj hpointer).symm
  refine ⟨fun p' hp' => ?_, fun p' hp' => ?_, fun j p' hj => ?_, fun j => ?_, fun j => ?_,
    fun q hq => ?_, fun hs j => ?_, h.notIdle⟩
  · dsimp only
    by_cases heq : p' = p
    · rw [heq, modProc_proc_self]
      obtain ⟨hperiod, hdelay, htimer⟩ := h.untimed p hp.allocated
      refine ⟨hperiod, hdelay, ?_⟩
      unfold wakeProcess
      dsimp only
      rw [htimer, if_neg fun hc => hc.2 rfl]
    · rw [modProc_proc_of_ne heq]
      exact h.untimed p' hp'
  · dsimp only
    by_cases heq : p' = p
    · rw [heq, modProc_proc_self]
      intro hsus
      rw [show (wakeProcess (WaitList.mutex i).kind cancel (s.proc p)).isSuspended
        = (s.proc p).isSuspended from rfl, hp.notSuspended] at hsus
      cases hsus
    · rw [modProc_proc_of_ne heq]
      exact h.suspended p' hp'
  · obtain ⟨hin, hne⟩ := hremains j p' hj
    obtain ⟨ha, hb, hc, hd, he, hf, hg⟩ := h.waiter j p' hin
    refine ⟨ha, hb, ?_, ?_, ?_, ?_, hg⟩
    all_goals
      dsimp only
      rw [modProc_proc_of_ne hne]
      assumption
  · dsimp only
    by_cases hji : j = i
    · rw [hji, hself]
      exact hnodup.2
    · rw [hrest j hji]
      exact h.nodup j
  · dsimp only
    by_cases hji : j = i
    · subst hji
      rw [hself]
      unfold countAfter
      dsimp only [WaitList.kind, WaitList.index]
      rw [Function.update_self, h.count j, hlist, List.length_cons]
      push_cast
      omega
    · rw [hrest j hji, countAfter_of_ne (Or.inr fun heq => hji heq.symm)]
      exact h.count j
  · dsimp only
    rw [Function.update_of_ne (hq i)]
    exact h.others q hq
  · rw [h.starting hs i] at hlist
    cases hlist

/-! ## Every move -/

theorem WaitersOk.moveNode (h : WaitersOk s) (node : Node) (p : Nat) (front follow : Bool) :
    WaitersOk (s.moveNode node p front follow) := by
  obtain ⟨processes, current, heq, -, -⟩ := moveNode_eq s node p front follow
  rw [heq]
  exact h.same rfl rfl rfl rfl rfl le_rfl rfl

/-- A free mutex is given to a process that does not wait for one. -/
theorem WaitersOk.give (h : WaitersOk s) (i p : Nat) (mutexId : Int) (hnot : ∀ j, ¬ MutexWaiter s j p) :
    WaitersOk (s.giveMutex i p mutexId) := by
  refine h.congr rfl rfl rfl rfl le_rfl rfl fun p' hp' => ?_
  rw [giveMutex_proc]
  split
  · next heq =>
      rw [heq] at hp' ⊢
      refine Steady.of_not_waiting h ?_ (h.suspended p hp') hnot
      obtain ⟨hperiod, hdelay, htimer⟩ := h.untimed p hp'
      exact ⟨hperiod, hdelay, htimer⟩
  · exact .refl h hp'

theorem WaitersOk.handOver (h : WaitersOk s) {i : Nat} {mutexId : Int}
    (hhand : s.handMutexOver i mutexId = some s') : WaitersOk s' := by
  rcases handMutexOver_eq_some hhand with ⟨-, rfl⟩ | ⟨woken, t, node, hwake, -, rfl⟩
  · exact h
  · have hready := wakeFirst_ready hwake
    have hgiven := (h.wake hwake).give i woken mutexId fun j hj => by
      rw [hj.waits] at hready
      cases hready
    exact hgiven.moveNode node woken true false

theorem WaitersOk.takenBack (h : WaitersOk s) {i p : Nat} {node : Node} {follow : Bool} {mutexId : Int}
    (howners : Owners s) (hidx : IsMutex s i mutexId) (hown : (s.proc p).ownedMutexId = mutexId) :
    WaitersOk (s.takenBack i p node follow) := by
  have hnot : ∀ j, ¬ MutexWaiter s j p := by
    intro j hj
    have hid := howners.ids i hidx.index_lt
    rw [hidx.mutexId_eq, ← hown, hj.owns, noMutexOwned] at hid
    omega
  rw [takenBack_eq]
  refine WaitersOk.moveNode (WaitersOk.modProc (s := s.setMutex i _)
    (h.same rfl rfl rfl rfl rfl le_rfl rfl) fun hp => ?_) node p true follow
  refine ⟨?_, h.suspended p hp, fun j hj => absurd (h.waiter j p hj) (hnot j)⟩
  obtain ⟨hperiod, hdelay, htimer⟩ := h.untimed p hp
  exact ⟨hperiod, hdelay, htimer⟩

/-- A pass over the processes that keeps the invariant of each. -/
theorem WaitersOk.visited (h : WaitersOk s) {f : Process → Process} {mode : OperatingMode}
    {lockLevel : Int} {ctl : Control} (hmode : mode ≠ .idle)
    (hempty : ∀ i, s.waitingProcesses (.mutex i) = [])
    (huntimed : ∀ x, Untimed x → Untimed (f x))
    (hsuspended : ∀ x, (f x).isSuspended = x.isSuspended
      ∧ (x.isSuspended = true → (f x).processState = x.processState)) :
    WaitersOk { s with
      proc := visited s.processes f s.proc
      status := { s.status with operatingMode := mode, lockLevel := lockLevel }
      ctl := ctl } := by
  have hrel := visited_rel (R := fun x y => (Untimed x → Untimed y) ∧ y.isSuspended = x.isSuspended
      ∧ (x.isSuspended = true → y.processState = x.processState))
    (fun _ => ⟨id, rfl, fun _ => rfl⟩)
    (fun x y z ⟨ha, hb, hc⟩ ⟨ha', hb', hc'⟩ => ⟨ha' ∘ ha, hb'.trans hb,
      fun hs => (hc' (hb.trans hs)).trans (hc hs)⟩)
    (fun x => ⟨huntimed x, (hsuspended x).1, (hsuspended x).2⟩) s.processes s.proc
  refine ⟨fun p hp => ?_, fun p hp hs => ?_, fun i p hi => ?_, h.nodup, h.count, h.others, fun _ => hempty,
    hmode⟩
  · exact (hrel p).1 (h.untimed p hp)
  · have hsus : (s.proc p).isSuspended = true := (hrel p).2.1.symm.trans hs
    dsimp only
    rw [(hrel p).2.2 hsus]
    exact h.suspended p hp hsus
  · dsimp only at hi
    rw [hempty i] at hi
    cases hi

/-- A process is created. -/
theorem WaitersOk.spawn (h : WaitersOk s) {y : Process} {node : Node} {isErrorHandler : Bool}
    (hfirst : isErrorHandler = true → s.errorHandlerProcess = none)
    (hy : SpawnedAs (s.proc s.nextProc) y) (hperiod : y.attributes.period = infiniteTimeValue) :
    WaitersOk (s.spawned y node isErrorHandler) := by
  have hold : ∀ p, p < s.nextProc → (s.spawned y node isErrorHandler).proc p = s.proc p :=
    fun p hp => Function.update_of_ne hp.ne _ _
  have hnew : (s.spawned y node isErrorHandler).proc s.nextProc = y := Function.update_self _ _ _
  have hcase : ∀ p, p < s.nextProc + 1 → p < s.nextProc ∨ p = s.nextProc := fun p hp => by omega
  -- the error handler may be the new process only
  have hhandler : ∀ p, p < s.nextProc → s.errorHandlerProcess ≠ some p →
      (s.spawned y node isErrorHandler).errorHandlerProcess ≠ some p := by
    intro p hp hne heq
    unfold spawned at heq
    dsimp only at heq
    split at heq
    · exact hp.ne (Option.some.inj heq).symm
    · exact hne heq
  refine ⟨fun p hp => ?_, fun p hp hs => ?_, fun i p hi => ?_, h.nodup, h.count, h.others, h.starting,
    h.notIdle⟩
  · rcases hcase p hp with hlt | rfl
    · rw [hold p hlt]
      exact h.untimed p hlt
    · rw [hnew]
      exact ⟨hperiod, hy.savedInitDelay, hy.timeCounter⟩
  · rcases hcase p hp with hlt | rfl
    · rw [hold p hlt] at hs ⊢
      refine (h.suspended p hlt hs).imp_right fun heh => ?_
      cases isErrorHandler with
      | false => exact heh
      | true =>
          rw [hfirst rfl] at heh
          cases heh
    · rw [hnew, hy.isSuspended] at hs
      cases hs
  · obtain ⟨ha, hb, hc, hd, he, hf, hg⟩ := h.waiter i p hi
    refine ⟨ha.trans (Nat.lt_succ_self _), hb, ?_, ?_, ?_, ?_, hhandler p ha hg⟩
    all_goals
      rw [hold p ha]
      assumption

/-- New lists are empty, as are the lists there are while the partition starts. -/
theorem WaitersOk.freshLists (h : WaitersOk s) (k : WaitKind) (i : Nat) :
    WaitersOk ((listsOf k i).foldl freshWaitList s) := by
  have hfresh : ∀ (t : Pcb) (q : WaitList), WaitersOk t → WaitersOk (t.freshWaitList q) := by
    intro t q ht
    rw [freshWaitList_eq]
    have hlist : ∀ q', Function.update t.waitingProcesses q [] q' = t.waitingProcesses q'
        ∨ Function.update t.waitingProcesses q [] q' = [] := by
      intro q'
      by_cases heq : q' = q
      · rw [heq, Function.update_self]
        exact Or.inr rfl
      · rw [Function.update_of_ne heq]
        exact Or.inl rfl
    refine ⟨ht.untimed, ht.suspended, fun j p hj => ?_, fun j => ?_, fun j => ?_, fun q' hq' => ?_,
      fun hs j => ?_, ht.notIdle⟩
    · dsimp only at hj
      rcases hlist (.mutex j) with hsame | hnil
      · rw [hsame] at hj
        obtain ⟨ha, hb, hc, hd, he, hf, hg⟩ := ht.waiter j p hj
        exact ⟨ha, hb, hc, hd, he, hf, hg⟩
      · rw [hnil] at hj
        cases hj
    · dsimp only
      rcases hlist (.mutex j) with hsame | hnil
      · rw [hsame]
        exact ht.nodup j
      · rw [hnil]
        exact List.nodup_nil
    · dsimp only
      by_cases heq : (.mutex j : WaitList) = q
      · subst heq
        rw [Function.update_self]
        exact Function.update_self _ _ _
      · rw [Function.update_of_ne heq]
        rw [countFresh_of_ne]
        · exact ht.count j
        · cases q with
          | mutex j' => exact Or.inr fun hj => heq (congrArg WaitList.mutex hj.symm)
          | _ => exact Or.inl fun hk => nomatch hk
    · dsimp only
      rcases hlist q' with hsame | hnil
      · rw [hsame]
        exact ht.others q' hq'
      · exact hnil
    · dsimp only
      rcases hlist (.mutex j) with hsame | hnil
      · rw [hsame]
        exact ht.starting hs j
      · exact hnil
  generalize listsOf k i = l
  induction l generalizing s with
  | nil => exact h
  | cons q l ih => exact ih (hfresh s q h)

/-- A waiter for a mutex does not execute. -/
theorem MutexWaiter.not_calls (hsound : Sound s) {i p : Nat} (hw : MutexWaiter s i p) :
    ¬ Calls s p := fun hcalls => (hcalls.active hsound).1 hw.waits

theorem Untimed.of_same {x y : Process} (h : Untimed x) (hattributes : y.attributes = x.attributes)
    (hdelay : y.savedInitDelay = x.savedInitDelay) (htimer : y.timeCounter = x.timeCounter) :
    Untimed y :=
  ⟨by rw [hattributes, h.period], by rw [hdelay, h.delay], by rw [htimer, h.timer]⟩

/-- An untimed process is neither released nor timed out. -/
theorem Untimed.not_released {x : Process} (h : Untimed x) (uptime : Nat) :
    checkAndReleasePeriodicWaitingProcesses uptime x = x := by
  unfold checkAndReleasePeriodicWaitingProcesses
  refine if_neg fun hc => ?_
  rcases hc.2.1 with hperiod | ⟨hdelay, -⟩
  · exact hperiod h.period
  · exact hdelay h.delay

theorem Untimed.not_timedOut {x : Process} (h : Untimed x) (uptime : Nat) :
    checkTimeouts uptime x = x := by
  unfold checkTimeouts
  exact if_neg fun hc => hc.1 h.timer

/-- Every move of a partition whose processes wait for nothing but mutexes keeps the waiters. -/
theorem WaitersOk.move (h : WaitersOk s) (hsound : Sound s) (hallocated : Allocated s)
    (howners : Owners s) (hm : Move (mutexPermit giveBack prioritize) s s') : WaitersOk s' := by
  have hlinked : ∀ n ∈ s.processes, n.data < s.nextProc := fun n hn => hallocated _ (Or.inl ⟨n, hn, rfl⟩)
  have halloc : ∀ {p : Nat}, Calls s p → p < s.nextProc := fun hcalls =>
    hallocated _ (Live.of_calls hcalls)
  -- the record of the code that executes
  have hcaller : ∀ {p : Nat} {y : Process}, Calls s p → Untimed y →
      (y.isSuspended = true → (s.proc p).isSuspended = true) → p < s.nextProc → Steady s p y := by
    intro p y hcalls huntimed hsuspended _
    refine Steady.of_not_waiting h huntimed (fun hs => ?_) fun i hi => hi.not_calls hsound hcalls
    rcases h.suspended p (halloc hcalls) (hsuspended hs) with hw | heh
    · exact absurd hw (hcalls.active hsound).1
    · exact Or.inr heh
  have huntimed : ∀ {p : Nat}, Calls s p → Untimed (s.proc p) := fun hcalls =>
    h.untimed _ (halloc hcalls)
  cases hm with
  | frame hf =>
      exact h.same hf.proc hf.nextProc hf.errorHandlerProcess hf.waitingProcesses hf.waitingCount
        hf.mutexCount.ge hf.operatingMode
  | touch p f hf =>
      obtain ⟨-, hstate, hattributes, -, -, -, hdelay, htimer, hsuspended, hwaiting, howned⟩ :=
        hf (s.proc p)
      exact h.modProc fun hp => (Steady.refl h hp).same hattributes hdelay htimer hstate hsuspended
        hwaiting howned
  | moveNode node p front follow hmovable => exact h.moveNode node p front follow
  | block p q linked discipline timer k hcalls hkind hmutex hk hown hA =>
      obtain ⟨⟨i, rfl⟩, rfl⟩ := hA
      obtain ⟨hmust, rfl⟩ := hmutex i rfl
      exact h.block (halloc hcalls) hmust.index_lt (hcalls.active hsound).1 (hcalls.active hsound).2.2
        (howners.free_of_mustWait hmust (halloc hcalls)) hmust.notHandler
  | blockOnErrors p error k hcalls hk hA =>
      obtain ⟨⟨i, hi⟩, -⟩ := hA
      cases hi
  | setPriority p priority hfree hmax =>
      exact h.modProc fun hp => (Steady.refl h hp).same rfl rfl rfl rfl rfl rfl rfl
  | savePriority index p priority hidx => exact h.same rfl rfl rfl rfl rfl le_rfl rfl
  | sleep p f k timer hcalls hk hf hA => exact absurd hA id
  | yield p k hcalls hk =>
      have hyield := h.modProc (p := p) (f := fun x => { x with context := k })
        (hcaller hcalls ((huntimed hcalls).of_same rfl rfl rfl) id)
      exact hyield.same rfl rfl rfl rfl rfl le_rfl rfl
  | wake q cancel p hwake hq =>
      obtain ⟨rest, hlist, -⟩ := wakeFirst_eq_some hwake
      rw [h.others q hq] at hlist
      cases hlist
  | handOver index mutexId hhand hidx hstate => exact h.handOver hhand
  | acquire index p node mutexId hcalls hidx hnode hdata hstate hfree =>
      exact (h.give index p mutexId fun j hj => hj.not_calls hsound hcalls).moveNode node p true true
  | relock index p mutexId hcalls hidx hstate hmax => exact h.same rfl rfl rfl rfl rfl le_rfl rfl
  | unlock index p mutexId hcalls hidx hown hlock => exact h.same rfl rfl rfl rfl rfl le_rfl rfl
  | takeBack index p node follow mutexId hrun hidx hown hmovable hA => exact h.takenBack howners hidx hown
  | suspend node hnode hother hmutex howns hstate hA =>
      refine h.modProc fun _ => Steady.of_not_waiting h ?_ (fun _ => Or.inl rfl) fun i hi => ?_
      · exact (h.untimed _ (hlinked node hnode)).of_same rfl rfl rfl
      · rw [hi.pointer] at hmutex
        cases hmutex
  | resume node hnode hstate hwas =>
      have hu := h.untimed _ (hlinked node hnode)
      refine h.modProc fun _ => Steady.of_not_waiting h ⟨hu.period, hu.delay, ?_⟩ (fun hs => ?_)
        fun i hi => ?_
      · unfold resumed
        dsimp only
        split
        · rfl
        · exact hu.timer
      · cases hs
      · rcases hwas with hsus | hfaulted
        · rw [hi.notSuspended] at hsus
          cases hsus
        · rw [hi.waits] at hfaulted
          cases hfaulted
  | stop node hnode hother hA => exact absurd hA id
  | stopSelf p hcalls =>
      have hu := huntimed hcalls
      have hstopped := h.modProc (p := p) (f := makeDormant)
        (hcaller hcalls ⟨hu.period, hu.delay, rfl⟩ fun hs => nomatch hs)
      exact hstopped.same rfl rfl rfl rfl rfl le_rfl rfl
  | start node delayed f hnode hstate hf hA =>
      have hp := hlinked node hnode
      have hu := h.untimed _ hp
      obtain ⟨htimer, hdelay⟩ := hf.times hA
      refine h.modProc fun _ => Steady.of_not_waiting h (hu.of_same hf.attributes hdelay htimer)
        (fun hs => ?_) fun i hi => ?_
      · rw [hf.isSuspended] at hs
        rcases h.suspended _ hp hs with hw | heh
        · rw [hstate] at hw
          cases hw
        · exact Or.inr heh
      · rw [hi.waits] at hstate
        cases hstate
  | selfReady p hcalls => exact h.modProc (hcaller hcalls ((huntimed hcalls).of_same rfl rfl rfl) id)
  | timerOff p hcalls =>
      exact h.modProc (hcaller hcalls ⟨(huntimed hcalls).period, (huntimed hcalls).delay, rfl⟩ id)
  | fault p hcalls hA => exact absurd hA id
  | ignore node c hnode hc hid hA => exact absurd hA id
  | readyHandler p hp =>
      exact h.modProc fun hlt => Steady.of_not_waiting h ((h.untimed p hlt).of_same rfl rfl rfl)
        (fun _ => Or.inr hp) fun i hi => hi.notHandler hp
  | initHandler p hp =>
      exact h.modProc fun hlt => (Steady.refl h hlt).same rfl rfl rfl rfl rfl rfl rfl
  | schedule hctl hmode =>
      obtain ⟨proc, current, heq, hproc, -⟩ := processSchedule_eq s
      rw [heq]
      refine h.congr rfl rfl rfl rfl le_rfl rfl fun p hp => ?_
      -- a waiter, or a suspended process, is not active
      obtain ⟨st, hst, hstate⟩ := hproc p
      dsimp only
      rw [hst]
      have hstays : (s.proc p).processState = .waiting → st = .waiting := by
        intro hw
        rcases hstate with hsame | ⟨hready | hrunning, -⟩
        · rw [hsame, hw]
        · rw [hready] at hw
          cases hw
        · rw [hrunning] at hw
          cases hw
      obtain ⟨hu, hsus, hwaiter⟩ := Steady.refl h hp
      refine ⟨hu.of_same rfl rfl rfl, fun hs => (hsus hs).imp_left hstays, fun i hi => ?_⟩
      obtain ⟨hw, hpointer, howned, hnot⟩ := hwaiter i hi
      exact ⟨hstays hw, hpointer, howned, hnot⟩
  | release hctl =>
      rw [forEachProcess_eq, visited_eq_self fun n hn => (h.untimed _ (hlinked n hn)).not_released _]
      exact h
  | timeOuts hctl =>
      rw [forEachProcess_eq, visited_eq_self fun n hn => (h.untimed _ (hlinked n hn)).not_timedOut _]
      exact h
  | run node hnode hlinked hstate hmode => exact h.same rfl rfl rfl rfl rfl le_rfl rfl
  | main hmode => exact h.same rfl rfl rfl rfl rfl le_rfl rfl
  | toOs => exact h.same rfl rfl rfl rfl rfl le_rfl rfl
  | crash => exact h.same rfl rfl rfl rfl rfl le_rfl rfl
  | spawn y node isErrorHandler hrun hmode hnode hfirst hy hA => exact h.spawn hfirst hy hA
  | freshLists k i hmode => exact h.freshLists k i
  | newMutex x hmode hid hstate hlock => exact h.same rfl rfl rfl rfl rfl (Nat.le_succ _) rfl
  | newSamplingPort row port hmode hrow hport hA => exact absurd hA id
  | newQueuingPort row port hmode hrow hport hA => exact absurd hA id
  | toIdle hA => cases hA
  | toStart mode hmode hA =>
      rcases hmode with rfl | rfl
      · cases hA
      · cases hA
  | toNormal point hrun hmode hA =>
      have hstarting : Starting s := by
        rcases hrun with hprocess | hmain
        · exact absurd (hsound.process hprocess).1 hmode
        · exact hsound.main hmain
      rw [forEachProcess_eq]
      refine h.visited OperatingMode.noConfusion (h.starting hstarting) (fun x hx => ?_) fun x => ?_
      all_goals obtain ⟨release, deadline, heq⟩ := startProcess_eq s.krnl.uptime point x; rw [heq]
      · exact hx.of_same rfl rfl rfl
      · refine ⟨rfl, fun hs => ?_⟩
        exact if_neg fun hc => by simp [hs] at hc

structure MutexInv (s : Pcb) : Prop where
  allocated : Allocated s
  waiters : WaitersOk s
  owners : Owners s

theorem MutexInv.move (hsound : Sound s) (h : MutexInv s)
    (hm : Move (mutexPermit giveBack prioritize) s s') : MutexInv s' :=
  ⟨h.allocated.move hm, h.waiters.move hsound h.allocated h.owners hm,
    h.owners.move h.allocated (fun i p hp => (h.waiters.waiter i p hp).owns) hm⟩

/-! ## Waiters become owners -/

/-- Process `p` waits for mutex `i`, or owns it. -/
def WaitsOrOwns (i p : Nat) (s : Pcb) : Prop :=
  p ∈ s.waitingProcesses (.mutex i)
    ∨ p < s.nextProc ∧ i < s.res.mutexCount ∧ (s.proc p).ownedMutexId = i + 1

theorem WaitsOrOwns.allocated {i p : Nat} (h : MutexInv s) (hw : WaitsOrOwns i p s) : p < s.nextProc := by
  rcases hw with hin | hown
  · exact (h.waiters.waiter i p hin).allocated
  · exact hown.1

/-- A waiter that is passed over keeps waiting, and the first one is the new owner. -/
theorem WaitsOrOwns.handOver {i p index : Nat} {mutexId : Int} (h : MutexInv s) (hw : WaitsOrOwns i p s)
    (hhand : s.handMutexOver index mutexId = some s') (hidx : IsMutex s index mutexId) : WaitsOrOwns i p s' := by
  have hp := hw.allocated h
  rcases handMutexOver_eq_some hhand with ⟨-, rfl⟩ | ⟨woken, t, node, hwake, -, rfl⟩
  · exact hw
  · obtain ⟨rest, hlist, ht⟩ := wakeFirst_eq_some hwake
    have hmem : woken ∈ s.waitingProcesses (.mutex index) := by
      rw [hlist]
      exact List.mem_cons_self
    have hproc : ∀ p', ((((t.giveMutex index woken mutexId).listRemove node).listPush woken).1.proc
        p').ownedMutexId = if p' = woken then mutexId else (s.proc p').ownedMutexId := by
      intro p'
      show ((t.giveMutex index woken mutexId).proc p').ownedMutexId = _
      rw [giveMutex_proc, wakeFirst_proc hwake p']
      split
      · rfl
      · rfl
    have hlists : (((t.giveMutex index woken mutexId).listRemove node).listPush
        woken).1.waitingProcesses = Function.update s.waitingProcesses (.mutex index) rest := by
      show t.waitingProcesses = _
      rw [ht]
    have hcount : (((t.giveMutex index woken mutexId).listRemove node).listPush
        woken).1.res.mutexCount = s.res.mutexCount := by
      show t.res.mutexCount = _
      rw [ht]
      rfl
    have hnext : (((t.giveMutex index woken mutexId).listRemove node).listPush woken).1.nextProc
        = s.nextProc := by
      show t.nextProc = _
      rw [ht]
      rfl
    rcases hw with hin | ⟨-, hi, heq⟩
    · by_cases hii : i = index
      · subst hii
        rw [hlist] at hin
        rcases List.mem_cons.mp hin with rfl | hrest
        · -- the first waiter is the new owner
          refine Or.inr ⟨hnext ▸ hp, hcount ▸ hidx.index_lt, ?_⟩
          rw [hproc, if_pos rfl, ← hidx.mutexId_eq, h.owners.ids i hidx.index_lt]
        · refine Or.inl ?_
          rw [hlists, Function.update_self]
          exact hrest
      · refine Or.inl ?_
        rw [hlists, Function.update_of_ne fun hq => hii (WaitList.mutex.inj hq)]
        exact hin
    · refine Or.inr ⟨hnext ▸ hp, hcount ▸ hi, ?_⟩
      have hne : p ≠ woken := by
        rintro rfl
        rw [(h.waiters.waiter index p hmem).owns, noMutexOwned] at heq
        omega
      rw [hproc, if_neg hne]
      exact heq

/-- Until it gives the mutex back, a waiter that leaves the list is the owner. -/
theorem WaitsOrOwns.move {i p : Nat} (hsound : Sound s) (h : MutexInv s)
    (hm : Move (mutexPermit (· ≠ p) prioritize) s s') (hw : WaitsOrOwns i p s) : WaitsOrOwns i p s' := by
  have hp := hw.allocated h
  have hsame : ∀ {t : Pcb}, t.waitingProcesses = s.waitingProcesses → s.nextProc ≤ t.nextProc →
      s.res.mutexCount ≤ t.res.mutexCount → (t.proc p).ownedMutexId = (s.proc p).ownedMutexId →
      WaitsOrOwns i p t := by
    intro t hlists hnext hcount hown
    rcases hw with hin | ⟨-, hi, heq⟩
    · exact Or.inl (hlists ▸ hin)
    · exact Or.inr ⟨hp.trans_le hnext, hi.trans_le hcount, hown.trans heq⟩
  have hmod : ∀ {p' : Nat} {f : Process → Process},
      (f (s.proc p')).ownedMutexId = (s.proc p').ownedMutexId →
      ((s.modProc p' f).proc p).ownedMutexId = (s.proc p).ownedMutexId := by
    intro p' f hf
    by_cases heq : p = p'
    · rw [heq, modProc_proc_self, hf]
    · rw [modProc_proc_of_ne heq]
  have hvisited : ∀ {f : Process → Process}, (∀ x, (f x).ownedMutexId = x.ownedMutexId) →
      (visited s.processes f s.proc p).ownedMutexId = (s.proc p).ownedMutexId := fun hf =>
    visited_rel (R := fun x y => y.ownedMutexId = x.ownedMutexId) (fun _ => rfl)
      (fun _ _ _ h h' => h'.trans h) hf s.processes s.proc p
  cases hm with
  | frame hf =>
      exact hsame hf.waitingProcesses hf.nextProc.ge hf.mutexCount.ge (by rw [hf.proc])
  | touch p' f hf => exact hsame rfl le_rfl le_rfl (hmod (hf _).ownedMutexId)
  | moveNode node p' front follow hmovable =>
      obtain ⟨processes, current, heq, -, -⟩ := moveNode_eq s node p' front follow
      rw [heq]
      exact hsame rfl le_rfl le_rfl rfl
  | block p' q linked discipline timer k hcalls hkind hmutex hk hA =>
      rw [blocked_eq]
      rcases hw with hin | ⟨-, hi, heq⟩
      · refine Or.inl ?_
        dsimp only
        by_cases hq : (.mutex i : WaitList) = q
        · rw [hq, Function.update_self]
          rw [hq] at hin
          exact (insertedWaiters_perm _ _ _ _).mem_iff.mpr (List.mem_cons_of_mem _ hin)
        · rw [Function.update_of_ne hq]
          exact hin
      · refine Or.inr ⟨hp, hi, ?_⟩
        rw [← heq]
        exact hmod (f := fun x => { blockedRecord q linked timer x with context := k }) rfl
  | blockOnErrors p' error k hcalls hk hA =>
      obtain ⟨⟨j, hj⟩, -⟩ := hA
      cases hj
  | setPriority p' priority hfree hmax =>
      exact hsame rfl le_rfl le_rfl (hmod (f := fun x => { x with currentPriority := priority }) rfl)
  | savePriority index p' priority hidx => exact hsame rfl le_rfl le_rfl rfl
  | sleep p' f k timer hcalls hk hf hA => exact absurd hA id
  | yield p' k hcalls hk => exact hsame rfl le_rfl le_rfl (hmod (f := fun x => { x with context := k }) rfl)
  | wake q cancel p' hwake hq =>
      obtain ⟨rest, hlist, -⟩ := wakeFirst_eq_some hwake
      rw [h.waiters.others q hq] at hlist
      cases hlist
  | handOver index mutexId hhand hidx hstate =>
      exact WaitsOrOwns.handOver h hw hhand hidx
  | acquire index p' node mutexId hcalls hidx hnode hdata hstate hfree =>
      obtain ⟨processes, current, heq, -, -⟩ :=
        moveNode_eq (s.giveMutex index p' mutexId) node p' true true
      rw [heq]
      have hne : p ≠ p' := by
        rintro rfl
        rcases hw with hin | ⟨-, hi, hown⟩
        · exact (h.waiters.waiter i p hin).not_calls hsound hcalls
        · rcases hfree with hfree | hsame
          · rw [hfree, noMutexOwned] at hown
            omega
          · rw [← hidx.mutexId_eq, h.owners.ids index hidx.index_lt] at hsame
            have howned := h.owners.ownedMutex hp hidx.index_lt hsame
            rw [howned.state] at hstate
            cases hstate
      refine hsame rfl le_rfl le_rfl ?_
      dsimp only
      rw [giveMutex_proc, if_neg hne]
  | relock index p' mutexId hcalls hidx hstate hmax => exact hsame rfl le_rfl le_rfl rfl
  | unlock index p' mutexId hcalls hidx hown hlock => exact hsame rfl le_rfl le_rfl rfl
  | takeBack index p' node follow mutexId hrun hidx hown hmovable hA =>
      rw [takenBack_eq]
      obtain ⟨processes, current, heq, -, -⟩ := moveNode_eq
        ((s.setMutex index { s.res.mutexes index with
          mutexState := .available
          mutexOwner := nullProcessId
          lockCount := 0 }).modProc p' fun x => { x with
            ownedMutexId := noMutexOwned
            currentPriority := (s.res.mutexes index).savedOwnerPriority }) node p' true follow
      rw [heq]
      refine hsame rfl le_rfl le_rfl ?_
      dsimp only
      rw [modProc_proc_of_ne (Ne.symm hA)]
      rfl
  | suspend node hnode hother hmutex howns hstate hA => exact hsame rfl le_rfl le_rfl (hmod rfl)
  | resume node hnode hstate hwas => exact hsame rfl le_rfl le_rfl (hmod rfl)
  | stop node hnode hother hA => exact absurd hA id
  | stopSelf p' hcalls => exact hsame rfl le_rfl le_rfl (hmod (f := makeDormant) rfl)
  | start node delayed f hnode hstate hf hA => exact hsame rfl le_rfl le_rfl (hmod hf.ownedMutexId)
  | selfReady p' hcalls => exact hsame rfl le_rfl le_rfl (hmod rfl)
  | timerOff p' hcalls => exact hsame rfl le_rfl le_rfl (hmod rfl)
  | fault p' hcalls hA => exact absurd hA id
  | ignore node c hnode hc hid hA => exact absurd hA id
  | readyHandler p' hp' => exact hsame rfl le_rfl le_rfl (hmod rfl)
  | initHandler p' hp' => exact hsame rfl le_rfl le_rfl (hmod rfl)
  | schedule hctl hmode =>
      obtain ⟨proc, current, heq, hproc, -⟩ := processSchedule_eq s
      obtain ⟨st, hst, -⟩ := hproc p
      rw [heq]
      refine hsame rfl le_rfl le_rfl ?_
      dsimp only
      rw [hst]
  | release hctl =>
      rw [forEachProcess_eq, visited_eq_self fun n hn =>
        (h.waiters.untimed _ (h.allocated _ (Or.inl ⟨n, hn, rfl⟩))).not_released _]
      exact hw
  | timeOuts hctl =>
      rw [forEachProcess_eq, visited_eq_self fun n hn =>
        (h.waiters.untimed _ (h.allocated _ (Or.inl ⟨n, hn, rfl⟩))).not_timedOut _]
      exact hw
  | run node hnode hlinked hstate hmode => exact hsame rfl le_rfl le_rfl rfl
  | main hmode => exact hsame rfl le_rfl le_rfl rfl
  | toOs => exact hsame rfl le_rfl le_rfl rfl
  | crash => exact hsame rfl le_rfl le_rfl rfl
  | spawn y node isErrorHandler hrun hmode hnode hfirst hy hA =>
      refine hsame rfl (Nat.le_succ _) le_rfl ?_
      rw [show (s.spawned y node isErrorHandler).proc p = s.proc p from
        Function.update_of_ne hp.ne _ _]
  | freshLists k j hmode =>
      obtain ⟨lists, counts, heq⟩ := freshLists_eq s (listsOf k j)
      rw [heq]
      rcases hw with hin | ⟨-, hi, hown⟩
      · have hstarting : Starting s := by
          cases hs : s.status.operatingMode with
          | idle => exact absurd hs h.waiters.notIdle
          | normal => exact absurd hs hmode
          | coldStart => exact Or.inl hs
          | warmStart => exact Or.inr hs
        rw [h.waiters.starting hstarting i] at hin
        cases hin
      · exact Or.inr ⟨hp, hi, hown⟩
  | newMutex x hmode hid hstate hlock => exact hsame rfl le_rfl (Nat.le_succ _) rfl
  | newSamplingPort row port hmode hrow hport hA => exact absurd hA id
  | newQueuingPort row port hmode hrow hport hA => exact absurd hA id
  | toIdle hA => cases hA
  | toStart mode hmode hA =>
      rcases hmode with rfl | rfl
      · cases hA
      · cases hA
  | toNormal point hrun hmode hA =>
      rw [forEachProcess_eq]
      refine hsame rfl le_rfl le_rfl (hvisited fun x => ?_)
      obtain ⟨release, deadline, heq⟩ := startProcess_eq s.krnl.uptime point x
      rw [heq]

/-! ## Runs -/

/-- The services of the run: creation and mode change while the partition starts, then mutexes with no
    time-out or an infinite one, priorities, suspension, `START` and `STOP_SELF`, by aperiodic processes. -/
def CallsMutexService : Action → Prop
  | .call (.createProcess attributes) => attributes.period = infiniteTimeValue
  | .call (.createErrorHandler _) => True
  | .call (.createMutex _ _ _) => True
  | .call (.setPartitionMode operatingMode) => OperatingMode.ofInt? operatingMode = some .normal
  | .call (.acquireMutex _ timeOut) => timeOut = 0 ∨ timeOut = infiniteTimeValue
  | .call (.releaseMutex _) => True
  | .call (.resetMutex _ _) => True
  | .call .lockPreemption => True
  | .call .unlockPreemption => True
  | .call .stopSelf => True
  | .call (.start _) => True
  | .call (.setPriority _ _) => True
  | .call (.suspend _) => True
  | .call (.resume _) => True
  | .mainReturn => True
  | .loop => True
  | .kernel _ _ _ _ _ _ => True
  | _ => False

theorem permits_mutexPermit {e : Action} (he : CallsMutexService e)
    (hgive : ∀ p i, i < s.res.mutexCount →
      (s.proc p).ownedMutexId = (s.res.mutexes i).mutexId → giveBack p)
    (hprioritize : ∀ processId priority node, e = .call (.setPriority processId priority) →
      s.isProcessIdExisted processId = some node → prioritize node.data) :
    Permits (mutexPermit giveBack prioritize) s e := by
  have hwait : ∀ mutexId timeOut, timeOut = 0 ∨ timeOut = infiniteTimeValue →
      MayWaitForMutex (mutexPermit giveBack prioritize) s mutexId timeOut := by
    intro mutexId timeOut htime hne c i _ _ _
    rcases htime with h0 | hinf
    · exact absurd h0 hne
    · exact ⟨⟨i, rfl⟩, if_pos hinf⟩
  refine ⟨fun _ => hgive, fun service hservice => ?_, fun _ _ _ _ => ⟨fun _ => trivial, fun _ => trivial⟩,
    fun c a l hfault => ?_,
    fun _ _ => ⟨trivial, fun _ => ⟨fun _ _ _ => trivial, fun _ _ _ => trivial, fun _ _ => trivial⟩⟩⟩
  · subst hservice
    cases service with
    | createProcess attributes => exact he
    | createErrorHandler stackSize => rfl
    | setPartitionMode operatingMode =>
        intro mode hmode
        rw [show OperatingMode.ofInt? operatingMode = some .normal from he] at hmode
        exact (Option.some.inj hmode).symm
    | acquireMutex mutexId timeOut => exact ⟨hwait mutexId timeOut he, fun _ _ _ => trivial⟩
    | lockPreemption => exact ⟨hwait _ _ (Or.inr rfl), fun _ _ _ => trivial⟩
    | stopSelf => exact fun _ _ _ _ => trivial
    | start processId => exact fun _ _ _ => rfl
    | suspend processId => exact fun _ _ _ _ _ => trivial
    | setPriority processId priority =>
        exact fun node hnode _ => ⟨hprioritize processId priority node rfl hnode, trivial⟩
    | resume processId => exact fun _ _ => trivial
    | createMutex _ _ _ | releaseMutex _ | resetMutex _ _ | unlockPreemption => trivial
    | _ => exact absurd he id
  · subst hfault
    exact absurd he id

/-- The three places that say who owns mutex `i` and who waits for it agree. -/
structure MutexConsistent (s : Pcb) (i : Nat) : Prop where
  available_iff_unlocked : (s.res.mutexes i).mutexState = .available ↔ (s.res.mutexes i).lockCount = 0
  available_iff_unowned : (s.res.mutexes i).mutexState = .available ↔
    ∀ p, p < s.nextProc → (s.proc p).ownedMutexId ≠ (s.res.mutexes i).mutexId
  owner : (s.res.mutexes i).mutexState = .owned → ∃ p, (p < s.nextProc
      ∧ (s.proc p).ownedMutexId = (s.res.mutexes i).mutexId
      ∧ (s.res.mutexes i).mutexOwner = (s.proc p).processId)
    ∧ ∀ p', p' < s.nextProc → (s.proc p').ownedMutexId = (s.res.mutexes i).mutexId → p' = p
  locked : (s.res.mutexes i).mutexState = .owned →
    1 ≤ (s.res.mutexes i).lockCount ∧ (s.res.mutexes i).lockCount ≤ maxLockLevel
  count : s.waitingCount (.mutex, i) = (s.waitingProcesses (.mutex i)).length
  nodup : (s.waitingProcesses (.mutex i)).Nodup
  waiters : ∀ p ∈ s.waitingProcesses (.mutex i), (s.proc p).processState = .waiting
    ∧ (s.proc p).ownedMutexId = noMutexOwned ∧ (s.proc p).waiting .mutex = some i

theorem MutexInv.consistent (h : MutexInv s) {i : Nat} (hi : i < s.res.mutexCount) :
    MutexConsistent s i := by
  have hid := h.owners.ids i hi
  refine ⟨?_, ?_, fun howned => ?_, fun howned => ?_, h.waiters.count i, h.waiters.nodup i, fun p hp => ?_⟩
  · rcases h.owners.mutex i hi with hfree | howned
    · exact iff_of_true hfree.state hfree.lockCount
    · refine iff_of_false (fun ha => ?_) fun hz => ?_
      · rw [howned.state] at ha
        cases ha
      · have := howned.lockCount.1
        omega
  · rw [hid]
    rcases h.owners.mutex i hi with hfree | ⟨hstate, -, p, hp, hown, -, -⟩
    · exact iff_of_true hfree.state hfree.nobody
    · refine iff_of_false (fun ha => ?_) fun hno => hno p hp hown
      rw [hstate] at ha
      cases ha
  · rw [hid]
    rcases h.owners.mutex i hi with hfree | ⟨-, -, p, hp, hown, hname, huniq⟩
    · rw [hfree.state] at howned
      cases howned
    · exact ⟨p, ⟨hp, hown, hname⟩, huniq⟩
  · rcases h.owners.mutex i hi with hfree | ho
    · rw [hfree.state] at howned
      cases howned
    · exact ho.lockCount
  · have hw := h.waiters.waiter i p hp
    exact ⟨hw.waits, hw.owns, hw.pointer⟩

theorem mutexInv_startPartitionOs (period identifier : Int) (conf : PartitionConf) (maxErrors : Nat)
    (krnl : Krnl) (memory : Nat → Process) (lastTick : Nat) :
    MutexInv
      (partitionInit period identifier conf maxErrors krnl memory lastTick).startPartitionOs := by
  have hinit : MutexInv (partitionInit period identifier conf maxErrors krnl memory lastTick) := by
    refine ⟨(queues_partitionInit _ _ _ _ _ _ _).allocated, ⟨fun p hp => absurd hp (Nat.not_lt_zero p),
      fun p hp => absurd hp (Nat.not_lt_zero p),
      fun i p hp => absurd hp List.not_mem_nil, fun _ => List.nodup_nil, fun _ => rfl, fun _ _ => rfl,
      fun _ _ => rfl, OperatingMode.noConfusion⟩, ⟨fun i hi => absurd hi (Nat.not_lt_zero i),
      fun p hp => absurd hp (Nat.not_lt_zero p), fun i hi => absurd hi (Nat.not_lt_zero i)⟩⟩
  exact (Moves.keep (A := mutexPermit (fun _ => True) fun _ => True) (fun _ _ hs h hm => h.move hs hm)
    (startPartitionOs_moves _) (sound_partitionInit _ _ _ _ _ _ _) hinit).2

/-- In every run of the mutex services the ownership of every mutex is consistent, and a process that
    waits for a mutex leaves its list only in a step that makes it the owner. -/
theorem mutexes_stay_consistent (period identifier : Int) (conf : PartitionConf) (maxErrors : Nat)
    (krnl : Krnl) (memory : Nat → Process) (lastTick : Nat) {es : List Action} {s : Pcb}
    (hrun : Transition.GuardedRun step (fun _ e => CallsMutexService e)
      (partitionInit period identifier conf maxErrors krnl memory lastTick).startPartitionOs es s) :
    (∀ i, i < s.res.mutexCount → MutexConsistent s i)
      ∧ ∀ e s', CallsMutexService e → s.step e = some s' →
        ∀ i p, p ∈ s.waitingProcesses (.mutex i) →
          (p ∈ s'.waitingProcesses (.mutex i) ∧ (s'.proc p).processState = .waiting)
            ∨ (s'.proc p).ownedMutexId = (s'.res.mutexes i).mutexId
              ∧ (s'.res.mutexes i).mutexOwner = (s'.proc p).processId := by
  have hinv := keeps_of_moves (A := mutexPermit (fun _ => True) fun _ => True) (I := MutexInv) hrun
    (fun _ _ _ _ _ he _ => permits_mutexPermit he (fun _ _ _ _ => trivial) fun _ _ _ _ _ => trivial)
    (fun _ _ hs h hm => h.move hs hm) (sound_startPartitionOs _ _ _ _ _ _ _)
    (mutexInv_startPartitionOs _ _ _ _ _ _ _)
  refine ⟨fun i hi => hinv.2.consistent hi, fun e s' he hstep i p hp => ?_⟩
  -- the waiter owns nothing it could give back
  have hmoves : Moves (mutexPermit (· ≠ p) fun _ => True) s s' := by
    refine step_moves hinv.1.running (permits_mutexPermit he (fun q j hj hown heq => ?_)
      fun _ _ _ _ _ => trivial) hstep
    rw [heq, (hinv.2.waiters.waiter i p hp).owns, hinv.2.owners.ids j hj, noMutexOwned] at hown
    omega
  obtain ⟨-, hinv', hw⟩ := Moves.keep (I := fun t => MutexInv t ∧ WaitsOrOwns i p t)
    (fun _ _ hs h hm => ⟨h.1.move hs hm, h.2.move hs h.1 hm⟩) hmoves hinv.1 ⟨hinv.2, Or.inl hp⟩
  rcases hw with hin | ⟨hlt, hi, hown⟩
  · exact Or.inl ⟨hin, (hinv'.waiters.waiter i p hin).waits⟩
  · obtain ⟨-, -, q, -, -, hname, huniq⟩ := hinv'.owners.ownedMutex hlt hi hown
    refine Or.inr ⟨by rw [hown, hinv'.owners.ids i hi], ?_⟩
    rw [huniq p hlt hown, hname]

/-- Two processes of the same priority and one mutex: the first acquires it, the second waits. -/
def contendedMutex : List Action :=
  [.loop, .call (.createProcess (aperiodicProcess "A".toList 40)),
    .call (.createProcess (aperiodicProcess "B".toList 40)), .call (.createMutex "M".toList 40 0),
    .call (.start 1), .call (.start 2), .call (.setPartitionMode 3), .loop,
    .call (.acquireMutex 2 infiniteTimeValue), .call (.setPriority 1 40), .loop,
    .call (.acquireMutex 2 infiniteTimeValue)]

theorem mutexes_stay_consistent_contended :
    ∃ s, Transition.run step (defaultPartition 1) contendedMutex = some s
      ∧ s.waitingProcesses (.mutex 1) = [1] ∧ MutexConsistent s 1 := by
  have hrun : (Transition.run step (defaultPartition 1) contendedMutex).map
      (fun s => (s.waitingProcesses (.mutex 1), s.res.mutexCount)) = some ([1], 2) := by decide
  obtain ⟨s, hs, heq⟩ := Option.map_eq_some_iff.mp hrun
  obtain ⟨hwaiters, hcount⟩ := Prod.mk.inj heq
  refine ⟨s, hs, hwaiters, ?_⟩
  refine (mutexes_stay_consistent 50 1 defaultPartitionConf 10 defaultKrnl (fun _ => zeroProcess) 0
    (.of_run hs ?_)).1 1 (by rw [hcount]; decide)
  simp only [contendedMutex, List.forall_mem_cons]
  refine ⟨trivial, rfl, rfl, trivial, trivial, trivial, rfl, trivial, Or.inr rfl, trivial, trivial,
    Or.inr rfl, ?_⟩
  exact fun e he => absurd he List.not_mem_nil

end Pcb

end UcxArinc
