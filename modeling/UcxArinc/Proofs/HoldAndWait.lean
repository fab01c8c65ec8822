import UcxArinc.Proofs.Owners
import UcxArinc.Proofs.Stopping

set_option autoImplicit false

/-! # Holding a mutex and waiting

The services that block refuse a process that owns a mutex, except one: `RAISE_APPLICATION_ERROR` on a full
error list. Apart from it an owner never waits, as long as nothing but a hand-over makes a process that
waits for a mutex `READY`; `RespectsLocks` says so of one step. -/

namespace UcxArinc

namespace Pcb

variable {A : Permit} {s s' : Pcb} {p : Nat}

/-! ## Owners and waiters -/

/-- A relation that leads from nowhere it leads to has no cycle. -/
theorem no_cycle {α : Type} {r : α → α → Prop} (h : ∀ a b c, r a b → ¬ r b c) (a : α) :
    ¬ Relation.TransGen r a a := by
  intro hcycle
  obtain ⟨b, hab, -⟩ := Relation.TransGen.head'_iff.mp hcycle
  obtain ⟨c, -, hca⟩ := Relation.TransGen.tail'_iff.mp hcycle
  exact h c a b hca hab

/-- Process `p` owns mutex `i`. -/
def Owns (s : Pcb) (p i : Nat) : Prop :=
  i < s.res.mutexCount ∧ (s.proc p).ownedMutexId = (s.res.mutexes i).mutexId

/-- Process `p` is in the list of a mutex. -/
def AwaitsMutex (s : Pcb) (p : Nat) : Prop := ∃ i, p ∈ s.waitingProcesses (.mutex i)

/-- Process `p` waits for a mutex that process `p'` owns. -/
def WaitsFor (s : Pcb) (p p' : Nat) : Prop :=
  ∃ i, p ∈ s.waitingProcesses (.mutex i) ∧ p' < s.nextProc ∧ Owns s p' i

/-- What its record says of process `p` that waits for mutex `i`. -/
structure AwaitsWith (s : Pcb) (i p : Nat) (x : Process) : Prop where
  waits : x.processState = .waiting
  pointer : x.waiting .mutex = some i
  free : x.ownedMutexId = noMutexOwned
  notHandler : s.errorHandlerProcess ≠ some p

/-- What its record says of process `p` that owns a mutex. -/
structure OwnsWith (s : Pcb) (p : Nat) (x : Process) : Prop where
  active : x.processState ≠ .waiting ∧ x.processState ≠ .dormant
  notHandler : s.errorHandlerProcess ≠ some p

structure LockInv (s : Pcb) : Prop where
  allocated : Allocated s
  owners : Owners s
  waiter : ∀ i p, p ∈ s.waitingProcesses (.mutex i) → AwaitsWith s i p (s.proc p)
  owner : ∀ p < s.nextProc, (s.proc p).ownedMutexId ≠ noMutexOwned → OwnsWith s p (s.proc p)
  nodup : ∀ i, (s.waitingProcesses (.mutex i)).Nodup
  starting : Starting s → ∀ n ∈ s.processes, ¬ AwaitsMutex s n.data

theorem LockInv.waitersFree (h : LockInv s) : WaitersFree s := fun i p hp => (h.waiter i p hp).free

theorem LockInv.waiter_lt (h : LockInv s) (hp : AwaitsMutex s p) : p < s.nextProc :=
  h.allocated p (Or.inr (Or.inr (Or.inl ⟨_, hp.choose_spec⟩)))

/-- A process waits for one mutex. -/
theorem LockInv.waits_once (h : LockInv s) {i j : Nat} (hi : p ∈ s.waitingProcesses (.mutex i))
    (hj : p ∈ s.waitingProcesses (.mutex j)) : i = j := by
  have hpointer := (h.waiter i p hi).pointer
  rw [(h.waiter j p hj).pointer] at hpointer
  exact (Option.some.inj hpointer).symm

/-! ## Steps that wake no waiter -/

/-- A new tick makes no process that waits for a mutex `READY`. -/
structure TickLeavesWaiters (s : Pcb) : Prop where
  released : ∀ n ∈ s.processes, AwaitsMutex s n.data → ¬ ReleaseDue s.krnl.uptime (s.proc n.data)
  expired : ∀ n ∈ s.processes, AwaitsMutex s n.data → ¬ Due s.krnl.uptime (s.proc n.data)
  ports : ∀ p, s.WokenAtPort p → ¬ AwaitsMutex s p

/-- No linked process with the identifier of the caller waits for a mutex. -/
def CallerAlone (s : Pcb) : Prop :=
  ∀ c, s.processCurrent = some c → ∀ node ∈ s.processes,
    (s.proc node.data).processId = (s.proc c.data).processId → ¬ AwaitsMutex s node.data

/-- The step makes no process that waits for a mutex `READY` but by a hand-over, stops no owner, and reports
    no error of an owner when the error list is full. -/
def RespectsLocks (s : Pcb) : Action → Prop
  | .call (.stop processId) => ∀ node, s.isProcessIdExisted processId = some node →
      (s.proc node.data).processState ≠ .dormant → (s.proc node.data).ownedMutexId = noMutexOwned
  | .call (.resume processId) => ∀ node, s.isProcessIdExisted processId = some node →
      (s.proc node.data).isSuspended = true → ¬ AwaitsMutex s node.data
  | .call (.raiseApplicationError _ _ _) => s.CallerAlone
      ∧ ∀ c, s.processCurrent = some c → s.errorHandlerProcess ≠ some c.data →
        s.errorListCb.nbErrors = s.errorListCb.maxErrors → (s.proc c.data).ownedMutexId = noMutexOwned
  | .fault _ _ _ => s.CallerAlone
  | .call service => ¬ GivesMutexBack (.call service) → ∀ p, Wakes s service p → ¬ AwaitsMutex s p
  | .loop => ¬ Starting s → s.krnl.ticks ≠ s.lastTick → s.TickLeavesWaiters
  | .mainReturn | .kernel _ _ _ _ _ _ => True

/-- What such a step `e` from state `b` may do. -/
def respectingLocks (b : Pcb) (e : Action) : Permit := { Permit.all with
  block := fun s p q _ => (∀ i, q = .mutex i → TakesMutex e)
    ∧ ((∀ i, q ≠ .mutex i) → (s.proc p).ownedMutexId = noMutexOwned)
  sleep := fun s p _ _ => (s.proc p).ownedMutexId = noMutexOwned
  wake := fun p => ¬ TakesMutex e ∧ ¬ AwaitsMutex b p
  resume := fun s p => (s.proc p).isSuspended = true → ¬ AwaitsMutex s p
  stop := fun s p => (s.proc p).ownedMutexId = noMutexOwned
  quit := fun s p => (s.proc p).ownedMutexId = noMutexOwned
  expire := fun s p => ¬ AwaitsMutex s p
  ignore := fun s p => ¬ AwaitsMutex s p }

/-- Only services that take mutexes add to the lists of state `b`. -/
def WaitersSince (b : Pcb) (e : Action) (s : Pcb) : Prop :=
  ∀ i p, p ∈ s.waitingProcesses (.mutex i) → TakesMutex e ∨ p ∈ b.waitingProcesses (.mutex i)

/-! ## One move -/

/-- A member of the list of a mutex was one before, or has just blocked on it. -/
theorem Move.awaits (hm : Move A s s') {i : Nat} (hp : p ∈ s'.waitingProcesses (.mutex i)) :
    p ∈ s.waitingProcesses (.mutex i) ∨ Calls s p ∧ BlocksOnMutex A s s' p i := by
  rcases hm.queues with hshrinks | ⟨p', q, hcalls, hjoins, hblocks, -⟩
  · exact Or.inl ((hshrinks.1 _).subset hp)
  · rcases hjoins.mem hp with hin | ⟨rfl, hq⟩
    · exact Or.inl hin
    · exact Or.inr ⟨hcalls, hblocks i hq.symm⟩

theorem WaitersSince.move {b : Pcb} {e : Action} (h : WaitersSince b e s)
    (hm : Move (respectingLocks b e) s s') : WaitersSince b e s' := by
  intro i p hp
  rcases hm.awaits hp with hin | ⟨-, hblocks⟩
  · exact h i p hin
  · obtain ⟨timer, hmay, -⟩ := hblocks.permitted
    exact Or.inl (hmay i rfl)

/-- A process that waits for a mutex before and after a move waits as before. -/
theorem LockInv.stays {b : Pcb} {e : Action} (h : LockInv s) (hsound : Sound s)
    (hsince : WaitersSince b e s) (hm : Move (respectingLocks b e) s s') {i : Nat}
    (hin : p ∈ s.waitingProcesses (.mutex i)) (hstill : p ∈ s'.waitingProcesses (.mutex i)) :
    (s'.proc p).processState = .waiting ∧ (s'.proc p).waiting .mutex = some i
      ∧ (s'.proc p).ownedMutexId = noMutexOwned := by
  have hawaits : AwaitsMutex s p := ⟨i, hin⟩
  have hlt := h.waiter_lt hawaits
  obtain ⟨hwaits, hpointer, hfree, hhandler⟩ := h.waiter i p hin
  have hcalls : ¬ Calls s p := fun hcalls => (hcalls.active hsound).1 hwaits
  have hstays : ∀ y : Process, y.processState = (s.proc p).processState →
      y.waiting = (s.proc p).waiting → y.ownedMutexId = (s.proc p).ownedMutexId →
        y.processState = .waiting ∧ y.waiting .mutex = some i ∧ y.ownedMutexId = noMutexOwned := by
    intro y hstate hpoint howns
    rw [hstate, hpoint, howns]
    exact ⟨hwaits, hpointer, hfree⟩
  have hchange := hm.change p
  generalize hx : s.proc p = x at hchange
  generalize s'.proc p = y at hchange ⊢
  rw [hx] at hwaits hpointer hfree hstays
  cases hchange with
  | same | setPriority | initHandler => exact hstays _ rfl rfl rfl
  | touch htouched => exact hstays _ htouched.processState htouched.waiting htouched.ownedMutexId
  | block | blockOnErrors | sleep | yield | acquire | stopSelf | selfReady | timerOff | fault =>
      exact absurd ‹Calls s p› hcalls
  | wake q cancel rest hq hlist hA =>
      rcases hsince i p hin with htakes | hbefore
      · exact absurd htakes hA.1
      · exact absurd ⟨i, hbefore⟩ hA.2
  | grant index mutexId rest hidx hstate hlist hA hrest =>
      -- the first waiter leaves the list
      have hmem : p ∈ s.waitingProcesses (.mutex index) := by
        rw [hlist]
        exact List.mem_cons_self
      obtain rfl := h.waits_once hin hmem
      have hnodup := h.nodup i
      rw [hlist, List.nodup_cons] at hnodup
      rw [hrest] at hstill
      exact absurd hstill hnodup.1
  | takeBack index mutexId hidx hown hA =>
      have hid := hidx.mutexId_eq
      rw [h.owners.ids index hidx.index_lt, ← hown, hfree, noMutexOwned] at hid
      omega
  | suspend hlinked hother hmutex =>
      rw [hpointer] at hmutex
      cases hmutex
  | resume hlinked hstate hwas hA =>
      rcases hwas with hsuspended | hfaulted
      · exact absurd hawaits (hA (hx ▸ hsuspended))
      · rw [hwaits] at hfaulted
        cases hfaulted
  | stop waiting hlinked hother hA hlists =>
      rw [hlists] at hstill
      refine absurd hstill (stopped_not_mem fun _ => ⟨⟨.mutex, rfl, ?_⟩, ?_⟩)
      · rw [hx]
        exact hpointer
      · exact List.nodup_iff_count_le_one.mp (h.nodup i) p
  | start delayed hlinked hstate =>
      rw [hwaits] at hstate
      cases hstate
  | ignore c hlinked hc hid hA => exact absurd hawaits hA
  | readyHandler hp => exact absurd hp hhandler
  | schedule hctl hrescheduled =>
      obtain ⟨st, rfl, hst⟩ := hrescheduled
      refine hstays _ ?_ rfl rfl
      rcases hst with hsame | ⟨hactive, -⟩
      · exact hsame
      · rw [hwaits] at hactive
        exact absurd hactive (by unfold Active; simp)
  | release hctl hlinked hA =>
      refine hstays _ ?_ ?_ ?_
      all_goals
        have hnot : ¬ ReleaseDue s.krnl.uptime x := by
          intro hdue
          rcases hsince i p hin with htakes | hbefore
          · exact (hA hdue).1 htakes
          · exact (hA hdue).2 ⟨i, hbefore⟩
        unfold checkAndReleasePeriodicWaitingProcesses
        unfold ReleaseDue at hnot
        rw [if_neg hnot]
  | timeOuts hctl hlinked hA =>
      refine hstays _ ?_ ?_ ?_
      all_goals
        have hnot : ¬ Due s.krnl.uptime x := fun hdue => hA hdue hawaits
        unfold checkTimeouts
        unfold Due at hnot
        rw [if_neg hnot]
  | spawn hp => exact absurd hlt (hp ▸ lt_irrefl p)
  | toNormal hrun hmode hlinked =>
      obtain ⟨n, hn, rfl⟩ := hlinked
      refine absurd hawaits (h.starting ?_ n hn)
      rcases hrun with hprocess | hmain
      · exact absurd (hsound.process hprocess).1 hmode
      · exact hsound.main hmain

/-- What its record says of an owner after a move. -/
theorem LockInv.owns {b : Pcb} {e : Action} (h : LockInv s) (hsound : Sound s)
    (hm : Move (respectingLocks b e) s s') (hlt : p < s'.nextProc)
    (howns : (s'.proc p).ownedMutexId ≠ noMutexOwned) :
    ((s'.proc p).processState ≠ .waiting ∧ (s'.proc p).processState ≠ .dormant)
      ∧ s.errorHandlerProcess ≠ some p := by
  have hlt' : p < s.nextProc := by
    rcases hm.allocated hlt with hbefore | hspawned
    · exact hbefore
    · exact absurd hspawned.ownedMutexId howns
  have howner := h.owner p hlt'
  -- a caller is neither `WAITING` nor `DORMANT`
  have hcalls : Calls s p → (s.proc p).processState ≠ .waiting ∧ (s.proc p).processState ≠ .dormant :=
    fun hcalls => ⟨(hcalls.active hsound).1, (hcalls.active hsound).2.1⟩
  have hchange := hm.change p
  generalize hx : s.proc p = x at hchange howner hcalls
  generalize s'.proc p = y at hchange howns ⊢
  have hsame : y.ownedMutexId = x.ownedMutexId → y.processState = x.processState →
      (y.processState ≠ .waiting ∧ y.processState ≠ .dormant) ∧ s.errorHandlerProcess ≠ some p := by
    intro hown hstate
    rw [hstate]
    rw [hown] at howns
    exact ⟨(howner howns).active, (howner howns).notHandler⟩
  have hready : y.processState = .ready → x.ownedMutexId ≠ noMutexOwned →
      (y.processState ≠ .waiting ∧ y.processState ≠ .dormant) ∧ s.errorHandlerProcess ≠ some p := by
    intro hstate hown
    rw [hstate]
    exact ⟨⟨ProcessState.noConfusion, ProcessState.noConfusion⟩, (howner hown).notHandler⟩
  cases hchange with
  | same | setPriority | yield | timerOff | initHandler => exact hsame rfl rfl
  | touch htouched => exact hsame htouched.ownedMutexId htouched.processState
  | block q linked timer k hcaller hkind hmutex hown hA =>
      refine absurd ?_ howns
      show x.ownedMutexId = noMutexOwned
      rw [← hx]
      by_cases hq : ∃ i, q = .mutex i
      · obtain ⟨i, rfl⟩ := hq
        exact h.owners.free_of_mustWait (hmutex i rfl).1 hlt'
      · exact hA.2 fun i hi => hq ⟨i, hi⟩
  | blockOnErrors error k hcaller hown hA =>
      refine absurd ?_ howns
      show x.ownedMutexId = noMutexOwned
      rw [← hx]
      exact hA.2 fun i hi => WaitList.noConfusion hi
  | sleep k timer hcaller hf hA =>
      refine absurd ?_ howns
      rw [hf.ownedMutexId, ← hx]
      exact hA
  | wake | selfReady | ignore | readyHandler => exact hready rfl howns
  | grant index mutexId rest hidx hstate hlist =>
      have hwaiter := h.waiter index p (by rw [hlist]; exact List.mem_cons_self)
      exact ⟨⟨ProcessState.noConfusion, ProcessState.noConfusion⟩, hwaiter.notHandler⟩
  | acquire index mutexId hcaller hidx hstate hfree hA hnot => exact ⟨hcalls hcaller, hnot⟩
  | takeBack => exact absurd rfl howns
  | suspend hlinked hother hmutex hno => exact absurd hno howns
  | resume => exact hready rfl howns
  | stop waiting hlinked hother hA =>
      have hfree : (s.proc p).ownedMutexId = noMutexOwned := hA
      rw [hx] at hfree
      exact absurd hfree howns
  | stopSelf hcaller hA =>
      have hfree : (s.proc p).ownedMutexId = noMutexOwned := hA
      rw [hx] at hfree
      exact absurd hfree howns
  | start delayed hlinked hstate hf =>
      rw [hf.ownedMutexId] at howns
      exact absurd hstate (howner howns).active.2
  | fault hcaller hA =>
      exact ⟨⟨ProcessState.noConfusion, ProcessState.noConfusion⟩, (howner howns).notHandler⟩
  | schedule hctl hrescheduled =>
      obtain ⟨st, rfl, hst⟩ := hrescheduled
      rcases hst with hsameState | ⟨-, hactive⟩
      · exact hsame rfl hsameState
      · have hnotHandler := (howner howns).notHandler
        refine ⟨⟨?_, ?_⟩, hnotHandler⟩
        all_goals
          rintro rfl
          exact absurd hactive (by unfold Active; simp)
  | release hctl hlinked hA =>
      unfold checkAndReleasePeriodicWaitingProcesses at howns hsame hready ⊢
      split_ifs at howns hsame hready ⊢
      · exact hready rfl howns
      · exact hready rfl howns
      · exact hsame rfl rfl
  | timeOuts hctl hlinked hA =>
      unfold checkTimeouts at howns hsame hready ⊢
      split_ifs at howns hsame hready ⊢
      · exact hready rfl howns
      · exact hsame rfl rfl
  | spawn hp => exact absurd hlt' (hp ▸ lt_irrefl p)
  | toNormal hrun hmode hlinked hstarted =>
      obtain ⟨release, deadline, rfl⟩ := hstarted
      dsimp only at hsame hready howns ⊢
      split
      · next hc => rw [if_pos hc] at hready; exact hready rfl howns
      · next hc => rw [if_neg hc] at hsame; exact hsame rfl rfl

/-- The error handler after a move is not a process that waits or owns. -/
theorem Move.not_handler (hm : Move A s s') (hlt : p < s.nextProc)
    (hnot : s.errorHandlerProcess ≠ some p) : s'.errorHandlerProcess ≠ some p := by
  intro hp
  rcases hm.handler hp with hbefore | hnew
  · exact hnot hbefore
  · exact absurd hlt (hnew ▸ lt_irrefl p)

/-- Nobody joins a list twice. -/
theorem LockInv.nodup_move (h : LockInv s) (hsound : Sound s) (hm : Move A s s') (i : Nat) :
    (s'.waitingProcesses (.mutex i)).Nodup := by
  rcases hm.queues with hshrinks | ⟨p, q, hcalls, hjoins, -⟩
  · exact (h.nodup i).sublist (hshrinks.1 _)
  · obtain ⟨l, hperm, hlists, -⟩ := hjoins
    rw [hlists]
    by_cases hq : (.mutex i : WaitList) = q
    · subst hq
      rw [Function.update_self]
      -- a process that waits executes nothing
      exact hperm.nodup_iff.mpr (List.nodup_cons.mpr
        ⟨fun hin => (hcalls.active hsound).1 (h.waiter i p hin).waits, h.nodup i⟩)
    · rw [Function.update_of_ne hq]
      exact h.nodup i

/-- While the partition starts, no linked process waits for a mutex. -/
theorem LockInv.starting_move (h : LockInv s) (hsound : Sound s) (hm : Move A s s')
    (hs : Starting s') : ∀ n ∈ s'.processes, ¬ AwaitsMutex s' n.data := by
  intro n hn ⟨i, hin⟩
  rcases hm.starting hs with hbefore | hnil
  · have hstill : n.data ∈ s.waitingProcesses (.mutex i) := by
      rcases hm.awaits hin with hin | ⟨hcalls, -⟩
      · exact hin
      · exact absurd hbefore (hcalls.active hsound).2.2
    rcases hm.linked ⟨n, hn, rfl⟩ with ⟨n', hn', hd⟩ | ⟨c, hc, -⟩ | hnew | ⟨j, hgiven⟩
    · exact h.starting hbefore n' hn' ⟨i, hd ▸ hstill⟩
    · rw [(hsound.starting hbefore).1] at hc
      cases hc
    · exact absurd (h.waiter_lt ⟨i, hstill⟩) (hnew ▸ lt_irrefl _)
    · -- it has left the one list it was in
      have hmem : n.data ∈ s.waitingProcesses (.mutex j) := by
        rw [hgiven]
        exact List.mem_cons_self
      obtain rfl := h.waits_once hstill hmem
      have hnodup := h.nodup i
      rw [hgiven, List.nodup_cons] at hnodup
      exact hnodup.1 hin
  · rw [hnil] at hn
    cases hn

theorem LockInv.move {b : Pcb} {e : Action} (h : LockInv s) (hsound : Sound s)
    (hsince : WaitersSince b e s) (hm : Move (respectingLocks b e) s s') : LockInv s' := by
  refine ⟨h.allocated.move hm, h.owners.move h.allocated h.waitersFree hm, fun i p hp => ?_,
    fun p hp howns => ?_, h.nodup_move hsound hm, h.starting_move hsound hm⟩
  · rcases hm.awaits hp with hin | ⟨hcalls, hmust, hstate, hpointer, hown, -⟩
    · obtain ⟨hwaits, hpointer, hfree⟩ := h.stays hsound hsince hm hin hp
      exact ⟨hwaits, hpointer, hfree, hm.not_handler (h.waiter_lt ⟨i, hin⟩) (h.waiter i p hin).notHandler⟩
    · have hlt := h.allocated p (Live.of_calls hcalls)
      exact ⟨hstate, hpointer, hown.trans (h.owners.free_of_mustWait hmust hlt),
        hm.not_handler hlt hmust.notHandler⟩
  · obtain ⟨hactive, hnot⟩ := h.owns hsound hm hp howns
    rcases hm.allocated hp with hlt | hspawned
    · exact ⟨hactive, hm.not_handler hlt hnot⟩
    · exact absurd hspawned.ownedMutexId howns

/-! ## Steps -/

theorem LockInv.not_owner_of_dormant (h : LockInv s) {node : Node} (hnode : node ∈ s.processes)
    (hdormant : (s.proc node.data).processState = .dormant) :
    (s.proc node.data).ownedMutexId = noMutexOwned := by
  by_contra howns
  exact (h.owner node.data (h.allocated _ (Or.inl ⟨node, hnode, rfl⟩)) howns).active.2 hdormant

/-- A process that may block owns nothing. -/
theorem free_of_canBlock {p : Nat} (h : s.cannotBlock p = false) :
    (s.proc p).ownedMutexId = noMutexOwned := by
  unfold cannotBlock at h
  simp only [Bool.or_eq_false_iff, decide_eq_false_iff_not, not_not] at h
  exact h.1

/-- What it notes does not change what a process owns. -/
theorem Noted.ownedMutexId {p : Nat} {t : Pcb} (h : Noted s p t) :
    (t.proc p).ownedMutexId = (s.proc p).ownedMutexId := by
  rcases h with rfl | ⟨f, hf, rfl⟩
  · rfl
  · rw [modProc_proc_self]
    exact (hf _).ownedMutexId

theorem released_timeCounter (s : Pcb) (p : Nat) :
    (s.released.proc p).timeCounter = (s.proc p).timeCounter := by
  unfold released
  rw [forEachProcess_eq]
  refine visited_rel (R := fun x y => y.timeCounter = x.timeCounter) (fun _ => rfl)
    (fun _ _ _ h h' => h'.trans h) (fun x => ?_) _ _ p
  unfold checkAndReleasePeriodicWaitingProcesses
  split_ifs <;> rfl

/-- The guard permits what the tick does. -/
theorem TickLeavesWaiters.mayTick (h : TickLeavesWaiters s) : MayTick (respectingLocks s .loop) s := by
  refine ⟨fun p hp hdue => ⟨id, fun hawaits => ?_⟩, fun p hp hdue hawaits => ?_,
    fun p hp => ⟨id, h.ports p hp⟩⟩
  · obtain ⟨n, hn, rfl⟩ := hp
    exact h.released n hn hawaits hdue
  · have hreleased : s.released.processes = s.processes ∧ s.released.krnl = s.krnl
        ∧ s.released.waitingProcesses = s.waitingProcesses := by
      unfold Pcb.released
      rw [forEachProcess_eq]
      exact ⟨rfl, rfl, rfl⟩
    obtain ⟨hprocesses, hkrnl, hlists⟩ := hreleased
    obtain ⟨n, hn, rfl⟩ := hp
    refine h.expired n (hprocesses ▸ hn) ?_ ?_
    · rwa [AwaitsMutex, hlists] at hawaits
    · unfold Due at hdue ⊢
      rwa [released_timeCounter, hkrnl] at hdue

/-- The guard permits what the step does. -/
theorem RespectsLocks.permits {e : Action} (hguard : RespectsLocks s e) (h : LockInv s)
    (hsound : Sound s) (hstep : s.step e = some s') : Permits (respectingLocks s e) s e := by
  have hcurrent : ∀ c, s.processCurrent = some c → c.data < s.nextProc := fun c hc =>
    h.allocated _ (Or.inr (Or.inl ⟨c, hc, rfl⟩))
  refine MayAct.permits
    { block := fun service hservice c hc t ht q hq timer => ⟨?_, fun hother => ?_⟩
      sleep := fun service _ c _ hcan _ _ _ => free_of_canBlock hcan
      suspendSelf := fun timeOut _ _ c _ hcan => free_of_canBlock hcan
      quit := fun he c t hc ht => ?_
      wake := fun hgives service hservice p hp => ⟨fun htakes => ?_, ?_⟩
      resume := fun processId node he hnode => ?_
      stop := fun processId node he hnode => ?_
      tick := fun he hstarting hnew => ?_
      ignore := fun he c hc node hnode hid => ?_ }
  · rintro i rfl
    cases hq with
    | checked _ hq => exact absurd rfl (hq i)
    | mutex _ he => exact he
  · show (t.proc c.data).ownedMutexId = noMutexOwned
    rw [ht.ownedMutexId]
    cases hq with
    | checked _ _ hcan => exact free_of_canBlock hcan
    | mutex i => exact absurd rfl (hother i)
    | handler i hhandler =>
        by_contra howns
        exact (h.owner _ (hcurrent c hc) howns).notHandler hhandler
    | errors he hnot hfull =>
        subst hservice
        cases service with
        | raiseApplicationError errorCode messageAddr length => exact hguard.2 c hc hnot hfull
        | _ => exact absurd he id
  · subst he
    rcases ht with hfree | ⟨c', i, hc', -, rest, hlist⟩
    · exact hfree
    · -- the caller is in no list
      have hcalls : Calls s c.data := ⟨(call_eq_some hstep).1, c, hc, rfl⟩
      exact absurd (h.waiter i c.data (by rw [hlist]; exact List.mem_cons_self)).waits
        (hcalls.active hsound).1
  · subst hservice
    cases service with
    | acquireMutex | lockPreemption => exact absurd hp id
    | _ => exact absurd htakes id
  · subst hservice
    cases service with
    | stop | resume | raiseApplicationError => exact absurd hp id
    | _ => exact hguard hgives p hp
  · subst he
    exact (hguard hstarting hnew).mayTick
  · subst he
    exact hguard node hnode
  · subst he
    by_cases hdormant : (s.proc node.data).processState = .dormant
    · exact h.not_owner_of_dormant (isProcessIdExisted_eq_some hnode).1 hdormant
    · exact hguard node hnode hdormant
  · have halone : s.CallerAlone := by
      cases e with
      | fault errorCode a l => exact hguard
      | call service =>
          cases service with
          | raiseApplicationError errorCode messageAddr length => exact hguard.1
          | _ => exact absurd he id
      | _ => exact absurd he id
    have hnot := halone c hc node hnode hid
    exact ⟨hnot, hnot⟩

/-! ## A caller that owns a mutex -/

/-- The services that can block their caller. -/
def CanBlock : Service → Prop
  | .suspendSelf _ | .timedWait _ | .periodicWait | .readBlackboard _ _ | .sendBuffer _ _ _ _
  | .receiveBuffer _ _ _ | .waitSemaphore _ _ | .waitEvent _ _ | .aperiodicWaitEvent _ | .acquireMutex _ _
  | .lockPreemption | .sendQueuingMessage _ _ _ _ | .receiveQueuingMessage _ _
  | .raiseApplicationError _ _ _ => True
  | _ => False

/-- The call does not make its own caller `READY`, by waking it or by ignoring its error. -/
def SparesCaller (s : Pcb) (service : Service) : Prop :=
  (∀ c, s.processCurrent = some c → ¬ Wakes s service c.data)
    ∧ ∀ errorCode messageAddr length, service = .raiseApplicationError errorCode messageAddr length →
      s.errorHandlerProcess = none →
        s.conf.partitionHmTable (4 * s.status.operatingMode.row + errorCode.column) ≠ .ignore

/-- Whatever changes the state of process `c` is forbidden. -/
def sparing (c : Nat) : Permit := { Permit.all with
  giveBack := fun p => p ≠ c
  block := fun _ p _ _ => p ≠ c
  sleep := fun _ p _ _ => p ≠ c
  wake := fun p => p ≠ c
  grant := fun p => p ≠ c
  suspend := fun _ p => p ≠ c
  resume := fun _ p => p ≠ c
  start := fun p _ => p ≠ c
  stop := fun _ p => p ≠ c
  quit := fun _ p => p ≠ c
  expire := fun _ p => p ≠ c
  error := fun p => p ≠ c
  ignore := fun _ p => p ≠ c
  dispatch := False
  mode := fun _ => False }

/-- Process `p` owns a mutex, in state `st`. -/
structure OwnsIn (st : ProcessState) (p : Nat) (s : Pcb) : Prop where
  allocated : p < s.nextProc
  owns : (s.proc p).ownedMutexId ≠ noMutexOwned
  notHandler : s.errorHandlerProcess ≠ some p
  processState : (s.proc p).processState = st

theorem OwnsIn.move {st : ProcessState} (h : OwnsIn st p s) (hm : Move (sparing p) s s') :
    OwnsIn st p s' := by
  obtain ⟨hlt, howns, hnot, hstate⟩ := h
  have hafter : (s'.proc p).ownedMutexId ≠ noMutexOwned ∧ (s'.proc p).processState = st := by
    have hchange := hm.change p
    generalize hx : s.proc p = x at hchange howns hstate
    generalize s'.proc p = y at hchange ⊢
    cases hchange with
    | same | setPriority | yield | timerOff | initHandler => exact ⟨howns, hstate⟩
    | touch htouched => exact ⟨htouched.ownedMutexId ▸ howns, htouched.processState.trans hstate⟩
    | block q linked timer k hcalls hkind hmutex hown hA => exact absurd rfl hA
    | blockOnErrors error k hcalls hown hA => exact absurd rfl hA
    | sleep k timer hcalls hf hA => exact absurd rfl hA
    | wake q cancel rest hq hlist hA => exact absurd rfl hA
    | grant index mutexId rest hidx hst hlist hA => exact absurd rfl hA
    | acquire index mutexId hcalls hidx hst hfree hA hnot' =>
        refine ⟨?_, hstate⟩
        rcases hfree with hnone | hsame
        · exact absurd hnone howns
        · exact hsame ▸ howns
    | takeBack index mutexId hidx hown hA => exact absurd rfl hA
    | suspend hlinked hother hmutex hno => exact absurd hno howns
    | resume hlinked hst hwas hA => exact absurd rfl hA
    | stop waiting hlinked hother hA => exact absurd rfl hA
    | stopSelf hcalls hA => exact absurd rfl hA
    | start delayed hlinked hst hf hA => exact absurd rfl hA
    | selfReady hcalls hcan => exact absurd (hx ▸ free_of_canBlock hcan) howns
    | fault hcalls hA => exact absurd rfl hA
    | ignore c hlinked hc hid hA => exact absurd rfl hA
    | readyHandler hp => exact absurd hp hnot
    | schedule hctl hrescheduled hA => exact absurd hA id
    | release hctl hlinked hA =>
        have hnotDue : ¬ ReleaseDue s.krnl.uptime x := fun hdue => hA hdue rfl
        unfold checkAndReleasePeriodicWaitingProcesses
        unfold ReleaseDue at hnotDue
        rw [if_neg hnotDue]
        exact ⟨howns, hstate⟩
    | timeOuts hctl hlinked hA =>
        have hnotDue : ¬ Due s.krnl.uptime x := fun hdue => hA hdue rfl
        unfold checkTimeouts
        unfold Due at hnotDue
        rw [if_neg hnotDue]
        exact ⟨howns, hstate⟩
    | spawn hp => exact absurd hlt (hp ▸ lt_irrefl p)
    | toNormal hrun hmode hlinked hstarted hA => exact absurd hA id
  exact ⟨hlt.trans_le hm.nextProc_le, hafter.1, hm.not_handler hlt hnot, hafter.2⟩

/-- What a service that can block needs to do no permission of an owner is asked for. -/
theorem LockInv.permits_sparing (h : LockInv s) {service : Service} {c : Node}
    (hblocks : CanBlock service) (hraise : ∀ errorCode a l, service ≠ .raiseApplicationError errorCode a l)
    (hc : s.processCurrent = some c) (howns : (s.proc c.data).ownedMutexId ≠ noMutexOwned)
    (hwakes : ¬ Wakes s service c.data) : Permits (sparing c.data) s (.call service) := by
  have hlt : c.data < s.nextProc := h.allocated _ (Or.inr (Or.inl ⟨c, hc, rfl⟩))
  have hcan : ∀ c', s.processCurrent = some c' → s.cannotBlock c'.data ≠ false := by
    intro c' hc' hcan
    rw [hc] at hc'
    cases hc'
    exact howns (free_of_canBlock hcan)
  have hmust : ∀ c' i, s.processCurrent = some c' → ¬ MustWaitForMutex s c'.data i := by
    intro c' i hc' hmust
    rw [hc] at hc'
    cases hc'
    exact howns (h.owners.free_of_mustWait hmust hlt)
  have hhandler : s.errorHandlerProcess ≠ some c.data := (h.owner _ hlt howns).notHandler
  refine ⟨fun hgives => ?_, fun service' he => ?_, fun service' he p hp => ⟨fun hgives => ?_, fun _ => ?_⟩,
    fun _ _ _ he => Action.noConfusion he, fun he => Action.noConfusion he⟩
  · cases service <;> first | exact absurd hgives id | exact absurd hblocks id
  · cases he
    cases service with
    | suspendSelf timeOut => exact fun _ _ c' hc' hno _ => absurd hno (hcan c' hc')
    | timedWait delayTime => exact ⟨fun _ c' hc' hno _ => absurd hno (hcan c' hc'), fun _ _ _ => trivial⟩
    | periodicWait => exact fun c' hc' hno _ => absurd hno (hcan c' hc')
    | readBlackboard | sendBuffer | receiveBuffer | waitSemaphore | waitEvent =>
        exact fun _ _ _ _ _ c' hc' hno _ _ => absurd hno (hcan c' hc')
    | sendQueuingMessage | receiveQueuingMessage =>
        exact fun _ _ _ _ _ _ _ _ c' hc' hno _ _ => absurd hno (hcan c' hc')
    | aperiodicWaitEvent eventId =>
        intro i c' _ hc' hh
        rw [hc] at hc'
        cases hc'
        exact absurd hh hhandler
    | lockPreemption | acquireMutex =>
        exact ⟨fun _ c' i hc' _ hm => absurd hm (hmust c' i hc'), fun _ _ _ => trivial⟩
    | raiseApplicationError errorCode a l => exact absurd rfl (hraise errorCode a l)
    | _ => exact absurd hblocks id
  · cases he
    cases service <;> first | exact absurd hgives id | exact absurd hblocks id
  · cases he
    rintro rfl
    exact hwakes hp

/-- `RAISE_APPLICATION_ERROR` of a process that need not wait and whose error is not ignored. -/
theorem raiseApplicationError_processState {c : Node} {errorCode : ErrorCode} {a : Area} {l : Int}
    (hc : s.processCurrent = some c) (hnot : s.errorHandlerProcess ≠ some c.data)
    (hroom : s.errorListCb.nbErrors ≠ s.errorListCb.maxErrors)
    (htable : s.errorHandlerProcess = none →
      s.conf.partitionHmTable (4 * s.status.operatingMode.row + errorCode.column) ≠ .ignore) :
    ((s.raiseApplicationError errorCode a l).1.proc c.data).processState
      = (s.proc c.data).processState := by
  unfold raiseApplicationError withCurrent
  rw [hc]
  dsimp only
  by_cases hlength : l < 0 ∨ maxErrorMessageSize < l
  · rw [if_pos hlength]
    rfl
  rw [if_neg hlength]
  by_cases hcode : errorCode ≠ .applicationError
  · rw [if_pos hcode]
    rfl
  rw [if_neg hcode]
  by_cases hnone : s.errorHandlerProcess = some c.data ∨ s.errorHandlerProcess = none
  · rw [if_pos hnone]
    have hno := htable (hnone.resolve_left hnot)
    unfold hmRaisePartitionError
    split
    · next hignore => exact absurd hignore hno
    · rfl
  rw [if_neg hnone, if_neg hroom]
  unfold raiseToErrorHandler
  dsimp only
  split
  · rfl
  · next q hq =>
      have hq' : s.errorHandlerProcess = some q := hq
      split
      · rfl
      · next t ht =>
          unfold wakeErrorHandler at ht
          split at ht
          · cases ht
            have hne : c.data ≠ q := by
              rintro rfl
              exact hnot hq'
            unfold yieldToPartition toPartitionOs
            dsimp only
            rw [modProc_proc_self]
            dsimp only
            rw [modProc_proc_of_ne hne]
            rfl
          · cases ht

/-! ## Runs -/

/-- Nobody owns two mutexes, an owner does not wait, and nobody waits in a circle. -/
structure NoHoldAndWait (s : Pcb) : Prop where
  one : ∀ p i j, Owns s p i → Owns s p j → i = j
  owner : ∀ i < s.res.mutexCount, (s.res.mutexes i).mutexState = .owned →
    ∃ p, (p < s.nextProc ∧ Owns s p i ∧ (s.res.mutexes i).mutexOwner = (s.proc p).processId)
      ∧ ∀ p' < s.nextProc, Owns s p' i → p' = p
  available : ∀ i < s.res.mutexCount, (s.res.mutexes i).mutexState = .available →
    ∀ p < s.nextProc, ¬ Owns s p i
  active : ∀ p < s.nextProc, ∀ i, Owns s p i → (s.proc p).processState ≠ .waiting
  acyclic : ∀ p, ¬ Relation.TransGen (WaitsFor s) p p

theorem LockInv.noHoldAndWait (h : LockInv s) : NoHoldAndWait s := by
  have hid : ∀ {p i}, Owns s p i → (s.proc p).ownedMutexId = i + 1 := fun howns =>
    howns.2.trans (h.owners.ids _ howns.1)
  have hsome : ∀ {p i}, Owns s p i → (s.proc p).ownedMutexId ≠ noMutexOwned := by
    intro p i howns hnone
    rw [hid howns, noMutexOwned] at hnone
    omega
  refine ⟨fun p i j hi hj => ?_, fun i hi hstate => ?_, fun i hi hstate p hp howns => ?_,
    fun p hp i howns => (h.owner p hp (hsome howns)).active.1, no_cycle fun p p' p'' hwaits => ?_⟩
  · have hij := hid hi
    rw [hid hj] at hij
    omega
  · rcases h.owners.mutex i hi with hfree | ⟨-, -, p, hp, hown, hname, huniq⟩
    · rw [hfree.state] at hstate
      cases hstate
    · exact ⟨p, ⟨hp, ⟨hi, hown.trans (h.owners.ids i hi).symm⟩, hname⟩,
        fun p' hp' hown' => huniq p' hp' (hid hown')⟩
  · rw [(h.owners.ownedMutex hp hi (hid howns)).state] at hstate
    cases hstate
  · -- who is waited for waits for nobody
    obtain ⟨i, -, hlt, howns⟩ := hwaits
    rintro ⟨j, hin, -⟩
    exact hsome howns (h.waiter j p' hin).free

theorem lockInv_partitionInit (period identifier : Int) (conf : PartitionConf) (maxErrors : Nat)
    (krnl : Krnl) (memory : Nat → Process) (lastTick : Nat) :
    LockInv (partitionInit period identifier conf maxErrors krnl memory lastTick) :=
  ⟨(queues_partitionInit _ _ _ _ _ _ _).allocated, ⟨fun i hi => absurd hi (Nat.not_lt_zero i),
    fun p hp => absurd hp (Nat.not_lt_zero p), fun i hi => absurd hi (Nat.not_lt_zero i)⟩,
    fun _ _ hp => absurd hp List.not_mem_nil, fun p hp => absurd hp (Nat.not_lt_zero p),
    fun _ => List.nodup_nil, fun _ _ hn => absurd hn List.not_mem_nil⟩

theorem lockInv_startPartitionOs (period identifier : Int) (conf : PartitionConf) (maxErrors : Nat)
    (krnl : Krnl) (memory : Nat → Process) (lastTick : Nat) :
    LockInv (partitionInit period identifier conf maxErrors krnl memory lastTick).startPartitionOs :=
  (Moves.keep (I := fun s => LockInv s ∧ WaitersSince _ .mainReturn s)
    (fun _ _ hs h hm => ⟨h.1.move hs h.2 hm, h.2.move hm⟩) (startPartitionOs_moves _)
    (sound_partitionInit _ _ _ _ _ _ _)
    ⟨lockInv_partitionInit _ _ _ _ _ _ _, fun _ _ hp => Or.inr hp⟩).2.1

/-- A step that respects locks keeps the invariant. -/
theorem LockInv.step {e : Action} (h : LockInv s) (hsound : Sound s) (hguard : RespectsLocks s e)
    (hstep : s.step e = some s') : LockInv s' :=
  (Moves.keep (I := fun t => LockInv t ∧ WaitersSince s e t)
    (fun _ _ hs ht hm => ⟨ht.1.move hs ht.2 hm, ht.2.move hm⟩)
    (step_moves hsound.running (hguard.permits h hsound hstep) hstep) hsound
    ⟨h, fun _ _ hp => Or.inr hp⟩).2.1

/-- An owner that calls a service that can block keeps its state. -/
theorem LockInv.owner_keeps_state {service : Service} {c : Node} (h : LockInv s) (hsound : Sound s)
    (hguard : RespectsLocks s (.call service)) (hblocks : CanBlock service)
    (hspares : SparesCaller s service) (hc : s.processCurrent = some c)
    (howns : (s.proc c.data).ownedMutexId ≠ noMutexOwned)
    (hstep : s.step (.call service) = some s') :
    (s'.proc c.data).processState = (s.proc c.data).processState := by
  have hlt : c.data < s.nextProc := h.allocated _ (Or.inr (Or.inl ⟨c, hc, rfl⟩))
  have hnot := (h.owner _ hlt howns).notHandler
  by_cases hraise : ∃ errorCode a l, service = .raiseApplicationError errorCode a l
  · obtain ⟨errorCode, a, l, rfl⟩ := hraise
    obtain ⟨-, rfl⟩ := call_eq_some hstep
    refine raiseApplicationError_processState hc hnot (fun hfull => ?_) (hspares.2 errorCode a l rfl)
    exact howns (hguard.2 c hc hnot hfull)
  · have hpermits := h.permits_sparing hblocks (fun errorCode a l he => hraise ⟨errorCode, a, l, he⟩) hc
      howns (hspares.1 c hc)
    exact (Moves.keep (I := OwnsIn (s.proc c.data).processState c.data) (fun _ _ _ ht hm => ht.move hm)
      (step_moves hsound.running hpermits hstep) hsound ⟨hlt, howns, hnot, rfl⟩).2.processState

/-- As long as nothing but a hand-over makes a process that waits for a mutex `READY`, no owner is stopped,
    and no owner reports an error to a full list, an owner never waits; and the services that can block leave
    an owner in its state, unless they make it `READY`. -/
theorem owners_never_wait (period identifier : Int) (conf : PartitionConf) (maxErrors : Nat)
    (krnl : Krnl) (memory : Nat → Process) (lastTick : Nat) {es : List Action} {s : Pcb}
    (hrun : Transition.GuardedRun step RespectsLocks
      (partitionInit period identifier conf maxErrors krnl memory lastTick).startPartitionOs es s) :
    NoHoldAndWait s ∧ ∀ service c i s', CanBlock service → RespectsLocks s (.call service) →
      SparesCaller s service → s.processCurrent = some c → Owns s c.data i →
        s.step (.call service) = some s' →
          (s'.proc c.data).processState = (s.proc c.data).processState := by
  obtain ⟨hsound, h⟩ := hrun.invariant (I := fun t => Sound t ∧ LockInv t)
    (fun t e t' ht hok hstep => ⟨ht.1.step hstep, ht.2.step ht.1 hok hstep⟩)
    ⟨sound_startPartitionOs period identifier conf maxErrors krnl memory lastTick,
      lockInv_startPartitionOs period identifier conf maxErrors krnl memory lastTick⟩
  refine ⟨h.noHoldAndWait, fun service c i s' hblocks hguard hspares hc howns hstep => ?_⟩
  refine h.owner_keeps_state hsound hguard hblocks hspares hc (fun hnone => ?_) hstep
  have hid := howns.2
  rw [hnone, h.owners.ids i howns.1, noMutexOwned] at hid
  omega

/-- A turn of the loop without a new tick, or of a partition that starts, respects locks. -/
theorem respectsLocks_loop (h : Starting s ∨ s.krnl.ticks = s.lastTick) : RespectsLocks s .loop :=
  fun hstarting htick => h.elim (fun hs => absurd hs hstarting) fun ht => absurd ht htick

theorem twoProcesses_respectsLocks : ∃ s, Transition.GuardedRun step RespectsLocks (defaultPartition 1)
    twoProcesses s ∧ Transition.run step (defaultPartition 1) twoProcesses = some s :=
  twoProcesses_guarded (fun _ h => respectsLocks_loop h) (by
    simp [twoProcesses, RespectsLocks, Wakes])

/-- The owner of the preemption lock may not sleep. -/
theorem owners_never_wait_lockPreemption :
    ∃ s s' s'', Transition.run step (defaultPartition 1) twoProcesses = some s
      ∧ s.step (.call .lockPreemption) = some s' ∧ Owns s' 0 0
      ∧ s'.step (.call (.timedWait 10)) = some s'' ∧ NoHoldAndWait s'
      ∧ (s''.proc 0).processState = (s'.proc 0).processState := by
  obtain ⟨s, hguarded, hs⟩ := twoProcesses_respectsLocks
  have hrun : ((Transition.run step (defaultPartition 1) twoProcesses).bind fun s =>
      (s.step (.call .lockPreemption)).bind fun s' => (s'.step (.call (.timedWait 10))).map fun _ =>
        (s'.processCurrent, s'.res.mutexCount, (s'.proc 0).ownedMutexId, (s'.res.mutexes 0).mutexId))
      = some (some ⟨2, 0⟩, 1, 1, 1) := by decide
  rw [hs, Option.bind_some] at hrun
  obtain ⟨s', hs', hrun⟩ := Option.bind_eq_some_iff.mp hrun
  obtain ⟨s'', hs'', hfields⟩ := Option.map_eq_some_iff.mp hrun
  simp only [Prod.mk.injEq] at hfields
  obtain ⟨hcurrent, hcount, howned, hid⟩ := hfields
  have howns : Owns s' 0 0 := ⟨by rw [hcount]; exact Nat.one_pos, howned.trans hid.symm⟩
  have hlock : RespectsLocks s (.call .lockPreemption) := fun _ _ hwakes => absurd hwakes id
  have hwait : RespectsLocks s' (.call (.timedWait 10)) := fun _ _ hwakes => absurd hwakes id
  obtain ⟨hno, hkeeps⟩ := owners_never_wait 50 1 defaultPartitionConf 10 defaultKrnl (fun _ => zeroProcess) 0
    (hguarded.snoc hlock hs')
  refine ⟨s, s', s'', hs, hs', howns, hs'', hno, ?_⟩
  exact hkeeps (.timedWait 10) ⟨2, 0⟩ 0 s'' trivial hwait
    ⟨fun _ _ hwakes => hwakes, fun _ _ _ he => Service.noConfusion he⟩ hcurrent howns hs''

/-- A process with an error handler reports ten errors, which the handler leaves in the list. -/
def tenErrors : List Action :=
  [.loop, .call (.createProcess (aperiodicProcess "A".toList 50)), .call (.createErrorHandler 1024),
    .call (.start 1), .call (.setPartitionMode 3), .loop]
    ++ (List.replicate 10 [.call (.raiseApplicationError .applicationError (fun _ => 0) 0), .loop,
      .call .stopSelf, .loop]).flatten

/-- An owner that reports one more error waits, and owns its mutex. -/
theorem owner_waits_on_full_list :
    ∃ s, Transition.run step (defaultPartition 1) (tenErrors ++ [.call .lockPreemption,
        .call (.raiseApplicationError .applicationError (fun _ => 0) 0)]) = some s
      ∧ s.status.operatingMode = .normal ∧ Owns s 0 0 ∧ (s.proc 0).processState = .waiting
      ∧ ¬ NoHoldAndWait s := by
  have hrun : (Transition.run step (defaultPartition 1) (tenErrors ++ [.call .lockPreemption,
      .call (.raiseApplicationError .applicationError (fun _ => 0) 0)])).map (fun s =>
        (s.status.operatingMode, s.nextProc, s.res.mutexCount, (s.proc 0).ownedMutexId,
          (s.res.mutexes 0).mutexId, (s.proc 0).processState))
      = some (.normal, 2, 1, 1, 1, .waiting) := by decide
  obtain ⟨s, hs, hfields⟩ := Option.map_eq_some_iff.mp hrun
  simp only [Prod.mk.injEq] at hfields
  obtain ⟨hmode, hnext, hcount, howned, hid, hstate⟩ := hfields
  have howns : Owns s 0 0 := ⟨by rw [hcount]; exact Nat.one_pos, howned.trans hid.symm⟩
  have hlt : 0 < s.nextProc := by
    rw [hnext]
    exact Nat.two_pos
  exact ⟨s, hs, hmode, howns, hstate, fun h => h.active 0 hlt 0 howns hstate⟩

end Pcb

end UcxArinc
