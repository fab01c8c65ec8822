import UcxArinc.Proofs.HoldAndWait
import UcxArinc.Proofs.MutexOwnership

set_option autoImplicit false

/-! # Priority ceilings

The owner of a mutex runs at the priority of the mutex, and its own priority waits in the mutex record,
where `SET_PRIORITY` writes while the mutex is owned. -/

namespace UcxArinc

namespace Pcb

variable {A : Permit} {s s' : Pcb} {p i : Nat}

/-! ## What a move does to one mutex -/

/-- A move from state `s` to state `s'` turns record `x` of mutex `i` into `y`. -/
inductive MutexChange (A : Permit) (s s' : Pcb) (i : Nat) : Mutex → Mutex → Prop
  | same (x : Mutex) : MutexChange A s s' i x x
  | savePriority (x : Mutex) (p : Nat) (priority : Int) (hidx : IsMutex s i (s.proc p).ownedMutexId)
      (hA : A.prioritize p) (hlinked : ∃ n ∈ s.processes, n.data = p) :
      MutexChange A s s' i x { x with savedOwnerPriority := priority }
  | give (x : Mutex) (p : Nat) (mutexId : Int) (hidx : IsMutex s i mutexId)
      (hstate : x.mutexState = .available) (hlive : Live s p) (howns : (s'.proc p).ownedMutexId = mutexId) :
      MutexChange A s s' i x { x with
        mutexState := .owned
        mutexOwner := (s.proc p).processId
        lockCount := x.lockCount + 1
        savedOwnerPriority := (s.proc p).currentPriority }
  | relock (x : Mutex) (lockCount : Int) (hstate : x.mutexState ≠ .available) :
      MutexChange A s s' i x { x with lockCount := lockCount }
  | unlock (x : Mutex) (lockCount : Int) (p : Nat) (hidx : IsMutex s i (s.proc p).ownedMutexId) :
      MutexChange A s s' i x { x with lockCount := lockCount }
  | takeBack (x : Mutex) (p : Nat) (hidx : IsMutex s i (s.proc p).ownedMutexId) (hA : A.giveBack p) :
      MutexChange A s s' i x { x with
        mutexState := .available
        mutexOwner := nullProcessId
        lockCount := 0 }

/-- A mutex record rewritten: the change if it is the one of mutex `i`, and none otherwise. -/
theorem change_setMutex {index : Nat} {x : Mutex}
    (h : i = index → MutexChange A s s' i (s.res.mutexes i) x) :
    MutexChange A s s' i (s.res.mutexes i) ((s.setMutex index x).res.mutexes i) := by
  show MutexChange A s s' i (s.res.mutexes i) (Function.update s.res.mutexes index x i)
  by_cases hi : i = index
  · subst hi
    rw [Function.update_self]
    exact h rfl
  · rw [Function.update_of_ne hi]
    exact .same _

/-- What a move does to the record of a mutex there is. -/
theorem Move.mutexChange (hm : Move A s s') (hi : i < s.res.mutexCount) :
    MutexChange A s s' i (s.res.mutexes i) (s'.res.mutexes i) := by
  cases hm with
  | frame hf =>
      rw [hf.mutexes]
      exact .same _
  | moveNode node p front follow h =>
      obtain ⟨processes, current, heq, -, -⟩ := moveNode_eq s node p front follow
      rw [heq]
      exact .same _
  | savePriority index p priority hidx hA hlinked =>
      refine change_setMutex ?_
      rintro rfl
      exact .savePriority _ p priority hidx hA hlinked
  | block p q linked discipline timer k hcalls hkind hmutex hk hown hA =>
      rw [blocked_eq]
      exact .same _
  | wake q cancel p hwake hq hA =>
      obtain ⟨rest, -, rfl⟩ := wakeFirst_eq_some hwake
      exact .same _
  | handOver index mutexId hhand hidx hstate hA =>
      rcases handMutexOver_eq_some hhand with ⟨-, rfl⟩ | ⟨woken, t, node, hwake, -, rfl⟩
      · exact .same _
      · obtain ⟨rest, hlist, rfl⟩ := wakeFirst_eq_some hwake
        refine change_setMutex ?_
        rintro rfl
        have hself : (s.modProc woken (wakeProcess (WaitList.mutex i).kind true)).proc woken
            = wakeProcess (some .mutex) true (s.proc woken) := modProc_proc_self _ _ _
        dsimp only
        rw [hself]
        refine .give _ woken mutexId hidx hstate
          (Or.inr (Or.inr (Or.inl ⟨_, by rw [hlist]; exact List.mem_cons_self⟩))) ?_
        show ((giveMutex _ i woken mutexId).proc woken).ownedMutexId = mutexId
        rw [giveMutex_proc, if_pos rfl]
  | acquire index p node mutexId hcalls hidx hnode hdata hstate hfree hA hnot =>
      obtain ⟨processes, current, heq, -, -⟩ := moveNode_eq (s.giveMutex index p mutexId) node p true true
      rw [heq]
      refine change_setMutex ?_
      rintro rfl
      refine .give _ p mutexId hidx hstate (.of_calls hcalls) ?_
      dsimp only
      rw [giveMutex_proc, if_pos rfl]
  | relock index p mutexId hcalls hidx hstate hmax =>
      refine change_setMutex ?_
      rintro rfl
      exact .relock _ _ hstate
  | unlock index p mutexId hcalls hidx hown hlock =>
      refine change_setMutex ?_
      rintro rfl
      exact .unlock _ _ p (hown ▸ hidx)
  | takeBack index p node follow mutexId hrun hidx hown hmovable hA =>
      rw [takenBack_eq]
      obtain ⟨processes, current, heq, -, -⟩ := moveNode_eq
        ((s.setMutex index { s.res.mutexes index with
          mutexState := .available
          mutexOwner := nullProcessId
          lockCount := 0 }).modProc p fun x => { x with
            ownedMutexId := noMutexOwned
            currentPriority := (s.res.mutexes index).savedOwnerPriority }) node p true follow
      rw [heq]
      refine change_setMutex ?_
      rintro rfl
      exact .takeBack _ p (hown ▸ hidx) hA
  | stop node hnode hother hA =>
      obtain ⟨w, l, c, heq⟩ := stopped_eq s node.data
      rw [heq]
      exact .same _
  | schedule hctl hmode =>
      obtain ⟨proc, current, heq, -, -⟩ := processSchedule_eq s
      rw [heq]
      exact .same _
  | release hctl =>
      rw [forEachProcess_eq]
      exact .same _
  | timeOuts hctl =>
      rw [forEachProcess_eq]
      exact .same _
  | freshLists k j hmode =>
      obtain ⟨lists, counts, heq⟩ := freshLists_eq s (listsOf k j)
      rw [heq]
      exact .same _
  | newMutex x hmode hid hstate hlock =>
      refine change_setMutex ?_
      rintro rfl
      exact absurd hi (lt_irrefl _)
  | toNormal point hrun hmode hA =>
      rw [forEachProcess_eq]
      exact .same _
  | _ => exact .same _

theorem Move.mutexPriority (hm : Move A s s') (hi : i < s.res.mutexCount) :
    (s'.res.mutexes i).mutexPriority = (s.res.mutexes i).mutexPriority := by
  have hchange := hm.mutexChange hi
  generalize s.res.mutexes i = x at hchange ⊢
  generalize s'.res.mutexes i = y at hchange ⊢
  cases hchange <;> rfl

/-- Mutexes are only created. -/
theorem Move.mutexCount (hm : Move A s s') : s'.res.mutexCount = s.res.mutexCount
    ∨ s'.res.mutexCount = s.res.mutexCount + 1 ∧ s'.proc = s.proc ∧ s'.nextProc = s.nextProc := by
  cases hm with
  | frame hf => exact Or.inl hf.mutexCount
  | moveNode node p front follow h =>
      obtain ⟨processes, current, heq, -, -⟩ := moveNode_eq s node p front follow
      rw [heq]
      exact Or.inl rfl
  | block p q linked discipline timer k hcalls hkind hmutex hk hown hA =>
      rw [blocked_eq]
      exact Or.inl rfl
  | wake q cancel p hwake hq hA =>
      obtain ⟨rest, -, rfl⟩ := wakeFirst_eq_some hwake
      exact Or.inl rfl
  | handOver index mutexId hhand hidx hstate hA =>
      rcases handMutexOver_eq_some hhand with ⟨-, rfl⟩ | ⟨woken, t, node, hwake, -, rfl⟩
      · exact Or.inl rfl
      · obtain ⟨rest, hlist, rfl⟩ := wakeFirst_eq_some hwake
        exact Or.inl rfl
  | acquire index p node mutexId hcalls hidx hnode hdata hstate hfree hA hnot =>
      obtain ⟨processes, current, heq, -, -⟩ := moveNode_eq (s.giveMutex index p mutexId) node p true true
      rw [heq]
      exact Or.inl rfl
  | takeBack index p node follow mutexId hrun hidx hown hmovable hA =>
      rw [takenBack_eq]
      obtain ⟨processes, current, heq, -, -⟩ := moveNode_eq
        ((s.setMutex index { s.res.mutexes index with
          mutexState := .available
          mutexOwner := nullProcessId
          lockCount := 0 }).modProc p fun x => { x with
            ownedMutexId := noMutexOwned
            currentPriority := (s.res.mutexes index).savedOwnerPriority }) node p true follow
      rw [heq]
      exact Or.inl rfl
  | stop node hnode hother hA =>
      obtain ⟨w, l, c, heq⟩ := stopped_eq s node.data
      rw [heq]
      exact Or.inl rfl
  | schedule hctl hmode =>
      obtain ⟨proc, current, heq, -, -⟩ := processSchedule_eq s
      rw [heq]
      exact Or.inl rfl
  | release hctl =>
      rw [forEachProcess_eq]
      exact Or.inl rfl
  | timeOuts hctl =>
      rw [forEachProcess_eq]
      exact Or.inl rfl
  | freshLists k j hmode =>
      obtain ⟨lists, counts, heq⟩ := freshLists_eq s (listsOf k j)
      rw [heq]
      exact Or.inl rfl
  | newMutex x hmode hid hstate hlock => exact Or.inr ⟨rfl, rfl, rfl⟩
  | toNormal point hrun hmode hA =>
      rw [forEachProcess_eq]
      exact Or.inl rfl
  | _ => exact Or.inl rfl

/-! ## What a move does to what a process owns -/

/-- A move from state `s` to state `s'` turns record `x` of process `p` into `y`, as far as ownership and
    priority go. -/
inductive OwnershipChange (A : Permit) (s s' : Pcb) (p : Nat) (x y : Process) : Prop
  | same (howned : y.ownedMutexId = x.ownedMutexId) (hpriority : y.currentPriority = x.currentPriority)
  | setPriority (hfree : x.ownedMutexId = noMutexOwned) (howned : y.ownedMutexId = x.ownedMutexId)
      (hmax : y.currentPriority ≤ maxPriorityValue) (hA : A.prioritize p)
  | grant (index : Nat) (hidx : IsMutex s index y.ownedMutexId)
      (hstate : (s.res.mutexes index).mutexState = .available)
      (hin : p ∈ s.waitingProcesses (.mutex index))
      (hpriority : y.currentPriority = (s.res.mutexes index).mutexPriority) (hA : A.grant p)
  | acquire (index : Nat) (hidx : IsMutex s index y.ownedMutexId)
      (hstate : (s.res.mutexes index).mutexState = .available)
      (hfree : x.ownedMutexId = noMutexOwned ∨ x.ownedMutexId = y.ownedMutexId)
      (hpriority : y.currentPriority = (s.res.mutexes index).mutexPriority) (hA : A.acquire p)
  | takeBack (index : Nat) (hidx : IsMutex s index x.ownedMutexId) (howned : y.ownedMutexId = noMutexOwned)
      (hpriority : y.currentPriority = (s.res.mutexes index).savedOwnerPriority) (hA : A.giveBack p)
  | start (delayed : Bool) (hstate : x.processState = .dormant) (howned : y.ownedMutexId = x.ownedMutexId)
      (hpriority : y.currentPriority = x.attributes.basePriority) (hA : A.start p delayed)
  | spawn (hp : p = s.nextProc) (howned : y.ownedMutexId = noMutexOwned)

theorem Move.ownership (hm : Move A s s') (p : Nat) : OwnershipChange A s s' p (s.proc p) (s'.proc p) := by
  have hchange := hm.change p
  generalize s.proc p = x at hchange ⊢
  generalize s'.proc p = y at hchange ⊢
  cases hchange with
  | touch htouched => exact .same htouched.ownedMutexId htouched.currentPriority
  | setPriority priority hfree hmax hA => exact .setPriority hfree rfl hmax hA
  | sleep k timer hcalls hf => exact .same hf.ownedMutexId hf.currentPriority
  | grant index mutexId rest hidx hstate hlist hA =>
      exact .grant index hidx hstate (by rw [hlist]; exact List.mem_cons_self) rfl hA
  | acquire index mutexId hcalls hidx hstate hfree hA => exact .acquire index hidx hstate hfree rfl hA
  | takeBack index mutexId hidx hown hA => exact .takeBack index (hown ▸ hidx) rfl rfl hA
  | start delayed hlinked hstate hf hA => exact .start delayed hstate hf.ownedMutexId hf.currentPriority hA
  | schedule hctl hrescheduled =>
      obtain ⟨st, rfl, -⟩ := hrescheduled
      exact .same rfl rfl
  | release =>
      unfold checkAndReleasePeriodicWaitingProcesses
      split_ifs <;> exact .same rfl rfl
  | timeOuts =>
      unfold checkTimeouts
      split_ifs <;> exact .same rfl rfl
  | spawn hp hrun hmode hy => exact .spawn hp hy.ownedMutexId
  | toNormal hrun hmode hlinked hstarted =>
      obtain ⟨release, deadline, rfl⟩ := hstarted
      exact .same rfl rfl
  | _ => exact .same rfl rfl

/-! ## Owners run at the ceiling -/

/-- The owner of a mutex has its priority. -/
def AtCeiling (s : Pcb) : Prop :=
  ∀ p < s.nextProc, ∀ i, Owns s p i → (s.proc p).currentPriority = (s.res.mutexes i).mutexPriority

theorem Owners.ownedMutexId_eq (h : Owners s) (howns : Owns s p i) : (s.proc p).ownedMutexId = i + 1 :=
  howns.2.trans (h.ids i howns.1)

theorem Owners.owns_some (h : Owners s) (howns : Owns s p i) : (s.proc p).ownedMutexId ≠ noMutexOwned := by
  rw [h.ownedMutexId_eq howns, noMutexOwned]
  omega

/-- The owner after a move of a mutex there was before. -/
theorem LockInv.owns_before (h : LockInv s) (hm : Move A s s') (hlt : p < s'.nextProc) (h' : Owners s')
    (howns : Owns s' p i) : p < s.nextProc ∧ i < s.res.mutexCount := by
  have hlt' : p < s.nextProc := by
    rcases hm.allocated hlt with hbefore | hspawned
    · exact hbefore
    · exact absurd hspawned.ownedMutexId (h'.owns_some howns)
  refine ⟨hlt', ?_⟩
  rcases hm.mutexCount with hcount | ⟨hcount, hproc, -⟩
  · exact hcount ▸ howns.1
  · by_contra hnot
    -- nobody owns a mutex that is created
    have hid := h'.ownedMutexId_eq howns
    rw [hproc] at hid
    rcases h.owners.owned p hlt' with hno | ⟨j, hj, hown⟩
    · rw [hno, noMutexOwned] at hid
      omega
    · omega

theorem AtCeiling.move {b : Pcb} {e : Action} (h : AtCeiling s) (hsound : Sound s) (hlocks : LockInv s)
    (hsince : WaitersSince b e s) (hm : Move (respectingLocks b e) s s') : AtCeiling s' := by
  intro p hlt i howns
  have hlocks' := hlocks.move hsound hsince hm
  obtain ⟨hlt', hi⟩ := hlocks.owns_before hm hlt hlocks'.owners howns
  have hid := hlocks'.owners.ownedMutexId_eq howns
  have hbefore := h p hlt' i
  have hfree := hlocks.owner p hlt'
  rw [hm.mutexPriority hi]
  -- the mutex named by an identifier of this move is mutex `i`
  have hindex : ∀ {index : Nat} {mutexId : Int}, IsMutex s index mutexId → mutexId = i + 1 → index = i := by
    intro index mutexId hidx hmutexId
    have heq := hidx.mutexId_eq
    rw [hlocks.owners.ids index hidx.index_lt] at heq
    omega
  have howned : (s.proc p).ownedMutexId = i + 1 → Owns s p i := fun hown =>
    ⟨hi, hown.trans (hlocks.owners.ids i hi).symm⟩
  have hsome : ((i : Int) + 1) ≠ noMutexOwned := by
    rw [noMutexOwned]
    omega
  have hchange := hm.ownership p
  generalize s.proc p = x at hchange hbefore hfree howned
  generalize s'.proc p = y at hchange hid ⊢
  cases hchange with
  | same hown hpriority =>
      rw [hpriority]
      exact hbefore (howned (hown ▸ hid))
  | setPriority hno hown => exact absurd ((hown ▸ hid).symm.trans hno) hsome
  | grant index hidx hstate hin hpriority => rw [hpriority, hindex hidx hid]
  | acquire index hidx hstate hno hpriority => rw [hpriority, hindex hidx hid]
  | takeBack index hidx hno => exact absurd (hid.symm.trans hno) hsome
  | start delayed hstate hown =>
      rw [hown] at hid
      exact absurd hstate (hfree (fun hno => hsome (hid.symm.trans hno))).active.2
  | spawn hp hno => exact absurd (hid.symm.trans hno) hsome

/-! ## The own priority of a process -/

/-- Nobody sets the priority of process `p` or starts it. -/
def leavingPriority (p : Nat) : Permit := { Permit.all with
  start := fun p' _ => p' ≠ p
  prioritize := fun p' => p' ≠ p }

/-- The priority process `p` has, or will have once it gives its mutex back. -/
def OwnPriority (s : Pcb) (p : Nat) (v : Int) : Prop :=
  (s.proc p).ownedMutexId = noMutexOwned ∧ (s.proc p).currentPriority = v
    ∨ ∃ i, Owns s p i ∧ (s.res.mutexes i).savedOwnerPriority = v

theorem Owners.unique (h : Owners s) {p' : Nat} (hlt : p < s.nextProc) (howns : Owns s p i)
    (hlt' : p' < s.nextProc) (howns' : Owns s p' i) : p' = p := by
  obtain ⟨-, -, q, -, -, -, huniq⟩ := h.ownedMutex hlt howns.1 (h.ownedMutexId_eq howns)
  rw [huniq p hlt (h.ownedMutexId_eq howns), huniq p' hlt' (h.ownedMutexId_eq howns')]

/-- The priority that waits for an owner stays when nobody sets it. -/
theorem LockInv.saved_stays (h : LockInv s) (hlt : p < s.nextProc) (howns : Owns s p i)
    (hA : ∀ p', A.prioritize p' → p' ≠ p) (hm : Move A s s') :
    (s'.res.mutexes i).savedOwnerPriority = (s.res.mutexes i).savedOwnerPriority := by
  have howned := h.owners.ownedMutex hlt howns.1 (h.owners.ownedMutexId_eq howns)
  have hchange := hm.mutexChange howns.1
  generalize hx : s.res.mutexes i = x at hchange ⊢
  generalize s'.res.mutexes i = y at hchange ⊢
  cases hchange with
  | savePriority p' priority hidx hA' hlinked =>
      have howns' : Owns s p' i := ⟨hidx.index_lt, hidx.mutexId_eq.symm⟩
      exact absurd (h.owners.unique hlt howns (h.allocated _ (Or.inl hlinked)) howns') (hA p' hA')
  | give p' mutexId hidx hstate =>
      rw [← hx, howned.state] at hstate
      cases hstate
  | _ => rfl

/-- The priority of a process that is given a free mutex waits in the mutex. -/
theorem LockInv.saved_given (h : LockInv s) (h' : Owners s') (hm : Move A s s') (hlt : p < s'.nextProc)
    (hi : i < s.res.mutexCount) (hbefore : (s.proc p).ownedMutexId = noMutexOwned) (howns : Owns s' p i) :
    (s'.res.mutexes i).savedOwnerPriority = (s.proc p).currentPriority := by
  have hlt' := (h.owns_before hm hlt h' howns).1
  have hid := h'.ownedMutexId_eq howns
  -- the mutex was free
  have hfree : (s.res.mutexes i).mutexState = .available := by
    have hindex : ∀ {index : Nat}, IsMutex s index (s'.proc p).ownedMutexId → index = i := by
      intro index hidx
      have heq := hidx.mutexId_eq
      rw [h.owners.ids index hidx.index_lt, hid] at heq
      omega
    have hsome : (s'.proc p).ownedMutexId ≠ noMutexOwned := h'.owns_some howns
    cases hm.ownership p with
    | same hown => exact absurd (hown.trans hbefore) hsome
    | setPriority _ hown => exact absurd (hown.trans hbefore) hsome
    | grant index hidx hstate => exact hindex hidx ▸ hstate
    | acquire index hidx hstate => exact hindex hidx ▸ hstate
    | takeBack index hidx hno => exact absurd hno hsome
    | start delayed hstate hown => exact absurd (hown.trans hbefore) hsome
    | spawn hp => exact absurd hlt' (hp ▸ lt_irrefl p)
  have howned := (h'.ownedMutex hlt howns.1 hid).state
  have hchange := hm.mutexChange hi
  generalize s.res.mutexes i = x at hchange hfree
  generalize s'.res.mutexes i = y at hchange howned ⊢
  cases hchange with
  | give p' mutexId hidx hstate hlive howns' =>
      have hp' := (h.allocated p' hlive).trans_le hm.nextProc_le
      have hmutexId : mutexId = i + 1 := by
        rw [← hidx.mutexId_eq]
        exact h.owners.ids i hidx.index_lt
      rw [h'.unique hlt howns hp' ⟨howns.1, by rw [howns', hmutexId, h'.ids i howns.1]⟩]
  | relock lockCount hstate => exact absurd hfree hstate
  | same | savePriority | unlock =>
      rw [show x.mutexState = .owned from howned] at hfree
      cases hfree
  | takeBack => cases howned

theorem OwnPriority.move {b : Pcb} {e : Action} {v : Int} (h : OwnPriority s p v) (hlt : p < s.nextProc)
    (hsound : Sound s) (hlocks : LockInv s) (hsince : WaitersSince b e s)
    (hm : Move ((respectingLocks b e).inf (leavingPriority p)) s s') : OwnPriority s' p v := by
  have hm' : Move (respectingLocks b e) s s' := hm.mono (Permit.inf_le_left _ _)
  have hlocks' := hlocks.move hsound hsince hm'
  have hlt' := hlt.trans_le hm.nextProc_le
  have hmutex : ∀ {index : Nat} {mutexId : Int}, IsMutex s index mutexId → mutexId = index + 1 :=
    fun hidx => hidx.mutexId_eq.symm.trans (hlocks.owners.ids _ hidx.index_lt)
  have hcount : ∀ {j}, j < s.res.mutexCount → j < s'.res.mutexCount := by
    intro j hj
    rcases hm.mutexCount with hsame | ⟨hmore, -, -⟩
    · exact hsame ▸ hj
    · rw [hmore]
      exact Nat.lt_succ_of_lt hj
  have howns' : ∀ {j}, j < s.res.mutexCount → (s'.proc p).ownedMutexId = j + 1 → Owns s' p j := fun hj hown =>
    ⟨hcount hj, hown.trans (hlocks'.owners.ids _ (hcount hj)).symm⟩
  have hA : ∀ p', ((respectingLocks b e).inf (leavingPriority p)).prioritize p' → p' ≠ p := fun _ hp' => hp'.2
  rcases h with ⟨hno, hpriority⟩ | ⟨j, howns, hsaved⟩
  · -- a mutex that `p` is given
    have hgiven : ∀ {index : Nat}, IsMutex s index (s'.proc p).ownedMutexId → OwnPriority s' p v := by
      intro index hidx
      have howned := howns' hidx.index_lt (hmutex hidx)
      exact Or.inr ⟨index, howned,
        (hlocks.saved_given hlocks'.owners hm hlt' hidx.index_lt hno howned).trans hpriority⟩
    cases hm.ownership p with
    | same hown hprio => exact Or.inl ⟨hown.trans hno, hprio.trans hpriority⟩
    | setPriority hfree hown hmax hA => exact absurd rfl hA.2
    | grant index hidx => exact hgiven hidx
    | acquire index hidx => exact hgiven hidx
    | takeBack index hidx =>
        have heq := hmutex hidx
        rw [hno, noMutexOwned] at heq
        omega
    | start delayed hstate hown hprio hA => exact absurd rfl hA.2
    | spawn hp => exact absurd hlt (hp ▸ lt_irrefl p)
  · have hid := hlocks.owners.ownedMutexId_eq howns
    have hsome := hlocks.owners.owns_some howns
    have hstill : (s'.proc p).ownedMutexId = (s.proc p).ownedMutexId → OwnPriority s' p v := fun hown =>
      Or.inr ⟨j, howns' howns.1 (hown.trans hid), (hlocks.saved_stays hlt howns hA hm).trans hsaved⟩
    cases hm.ownership p with
    | same hown | setPriority _ hown => exact hstill hown
    | start delayed hstate hown => exact hstill hown
    | grant index hidx hstate hin => exact absurd (hlocks.waiter index p hin).free hsome
    | acquire index hidx hstate hfree =>
        rcases hfree with hfree | hsame
        · exact absurd hfree hsome
        · exact hstill hsame.symm
    | takeBack index hidx hno hprio =>
        have hindex : index = j := by
          have heq := hmutex hidx
          omega
        exact Or.inl ⟨hno, (hindex ▸ hprio).trans hsaved⟩
    | spawn hp => exact absurd hlt (hp ▸ lt_irrefl p)

/-! ## Who owns what after a step -/

/-- Mutexes change hands as the action says. -/
def handling (e : Action) : Permit := { Permit.all with
  acquire := fun _ => TakesMutex e
  giveBack := fun _ => GivesMutexBack e
  grant := fun _ => GivesMutexBack e }

theorem permits_handling (s : Pcb) (e : Action) : Permits (handling e) s e :=
  MayAct.permits
    { giveBack := fun he _ => he
      acquire := fun he _ _ _ => he
      grant := fun he _ _ _ _ => he }

theorem not_takes_of_gives {e : Action} (h : GivesMutexBack e) : ¬ TakesMutex e := by
  cases e with
  | call service => cases service <;> first | exact id | exact absurd h id
  | _ => exact id

/-- A step that neither takes a mutex nor gives one back. -/
theorem LockInv.ownership_stays {e : Action} (hsound : Sound s) (hlt : p < s.nextProc)
    (htakes : ¬ TakesMutex e) (hgives : ¬ GivesMutexBack e) (hstep : s.step e = some s') :
    (s'.proc p).ownedMutexId = (s.proc p).ownedMutexId := by
  refine (Moves.keep (A := handling e)
    (I := fun t => p < t.nextProc ∧ (t.proc p).ownedMutexId = (s.proc p).ownedMutexId) (fun t t' _ ht hm => ?_)
    (step_moves hsound.running (permits_handling s e) hstep) hsound ⟨hlt, rfl⟩).2.2
  refine ⟨ht.1.trans_le hm.nextProc_le, ?_⟩
  cases hm.ownership p with
  | same hown | setPriority _ hown => exact hown.trans ht.2
  | start delayed hstate hown => exact hown.trans ht.2
  | grant index hidx hstate hin hpriority hA => exact absurd hA hgives
  | acquire index hidx hstate hfree hpriority hA => exact absurd hA htakes
  | takeBack index hidx hno hpriority hA => exact absurd hA hgives
  | spawn hp => exact absurd ht.1 (hp ▸ lt_irrefl p)

/-- Process `p` owns mutex `i`, or has given it back in step `e`. -/
def OwnsOrGave (e : Action) (p i : Nat) (s : Pcb) : Prop :=
  Owns s p i ∨ GivesMutexBack e ∧ (s.proc p).ownedMutexId = noMutexOwned ∧ ¬ AwaitsMutex s p

/-- Who waits for no mutex waits for none after a move that takes none. -/
theorem Move.not_awaits {b : Pcb} {e : Action} (hm : Move (respectingLocks b e) s s')
    (htakes : ¬ TakesMutex e) (h : ¬ AwaitsMutex s p) : ¬ AwaitsMutex s' p := by
  rintro ⟨j, hin⟩
  rcases hm.awaits hin with hbefore | ⟨-, hblocks⟩
  · exact h ⟨j, hbefore⟩
  · obtain ⟨timer, hmay, -⟩ := hblocks.permitted
    exact htakes (hmay j rfl)

theorem OwnsOrGave.move {b : Pcb} {e : Action} (h : OwnsOrGave e p i s) (hlt : p < s.nextProc)
    (hsound : Sound s) (hlocks : LockInv s) (hsince : WaitersSince b e s)
    (hm : Move ((respectingLocks b e).inf (handling e)) s s') : OwnsOrGave e p i s' := by
  have hm' : Move (respectingLocks b e) s s' := hm.mono (Permit.inf_le_left _ _)
  have hlocks' := hlocks.move hsound hsince hm'
  rcases h with howns | ⟨hgives, hno, hawaits⟩
  · have hid := hlocks.owners.ownedMutexId_eq howns
    have hsome := hlocks.owners.owns_some howns
    have hnot : ¬ AwaitsMutex s p := fun ⟨j, hin⟩ => hsome (hlocks.waiter j p hin).free
    have hstill : (s'.proc p).ownedMutexId = (s.proc p).ownedMutexId → OwnsOrGave e p i s' := by
      intro hown
      have hcount : i < s'.res.mutexCount := by
        rcases hm.mutexCount with hsame | ⟨hmore, -, -⟩
        · exact hsame ▸ howns.1
        · rw [hmore]
          exact Nat.lt_succ_of_lt howns.1
      exact Or.inl ⟨hcount, by rw [hown, hid, hlocks'.owners.ids i hcount]⟩
    cases hm.ownership p with
    | same hown | setPriority _ hown => exact hstill hown
    | start delayed hstate hown => exact hstill hown
    | grant index hidx hstate hin => exact absurd ⟨index, hin⟩ hnot
    | acquire index hidx hstate hfree =>
        rcases hfree with hfree | hsame
        · exact absurd hfree hsome
        · exact hstill hsame.symm
    | takeBack index hidx hno hpriority hA =>
        have hgives : GivesMutexBack e := hA.2
        exact Or.inr ⟨hgives, hno, hm'.not_awaits (not_takes_of_gives hgives) hnot⟩
    | spawn hp => exact absurd hlt (hp ▸ lt_irrefl p)
  · refine Or.inr ⟨hgives, ?_, hm'.not_awaits (not_takes_of_gives hgives) hawaits⟩
    cases hm.ownership p with
    | same hown | setPriority _ hown => exact hown.trans hno
    | start delayed hstate hown => exact hown.trans hno
    | grant index hidx hstate hin => exact absurd ⟨index, hin⟩ hawaits
    | acquire index hidx hstate hfree hpriority hA => exact absurd hA.2 (not_takes_of_gives hgives)
    | takeBack index hidx hfree => exact hfree
    | spawn hp => exact absurd hlt (hp ▸ lt_irrefl p)

/-! ## Setting a priority -/

theorem Owners.findMutexById (h : Owners s) (hi : i < s.res.mutexCount) :
    s.findMutexById (i + 1) = some i := by
  have hsome : (s.findMutexById (i + 1)).isSome := by
    unfold Pcb.findMutexById findIndex
    rw [List.find?_isSome]
    exact ⟨i, List.mem_range.mpr hi, by simp [h.ids i hi]⟩
  obtain ⟨j, hj⟩ := Option.isSome_iff_exists.mp hsome
  have hidx := isMutex_of_find hj
  have heq := hidx.mutexId_eq
  rw [h.ids j hidx.index_lt] at heq
  rw [hj]
  exact congrArg some (by omega)

/-- `SET_PRIORITY` with these parameters is accepted, and names process `p`. -/
def SetsPriority (s : Pcb) (p : Nat) (processId priority : Int) : Prop :=
  (minPriorityValue ≤ priority ∧ priority ≤ maxPriorityValue)
    ∧ ∃ node, s.isProcessIdExisted processId = some node ∧ node.data = p
      ∧ (s.proc p).processState ≠ .dormant

/-- What `SET_PRIORITY` does once the priority is written: contexts and the process list change. -/
structure Requeued (s s' : Pcb) (node : Node) : Prop where
  res : s'.res = s.res
  records : ∀ p, ∃ k, s'.proc p = { s.proc p with context := k }
  order : s'.processes = s.processes
    ∨ ∃ newNode : Node, newNode.data = node.data ∧ s'.processes = s.processes.erase node ++ [newNode]

theorem requeued_spec (s : Pcb) (node : Node) : Requeued s (s.requeued node).1 node := by
  -- the caller, if there is one, notes where it resumes
  have hyield : ∀ t : Pcb, t.res = s.res → t.proc = s.proc →
      (∃ newNode : Node, newNode.data = node.data ∧ t.processes = s.processes.erase node ++ [newNode]) →
        Requeued s (t.withCurrent fun current => t.yieldToPartition current.data .setPriority).1 node := by
    intro t hres hproc horder
    unfold withCurrent
    split
    · exact ⟨hres, fun p => ⟨(s.proc p).context, congrFun hproc p⟩, Or.inr horder⟩
    · next current hcurrent =>
        refine ⟨hres, fun p => ?_, Or.inr horder⟩
        show ∃ k, (t.modProc current.data fun x => { x with context := .setPriority }).proc p = _
        by_cases hp : p = current.data
        · rw [hp, modProc_proc_self, hproc]
          exact ⟨_, rfl⟩
        · rw [modProc_proc_of_ne hp, hproc]
          exact ⟨(s.proc p).context, rfl⟩
  unfold requeued
  by_cases hstate : (s.proc node.data).processState = .ready
      ∨ (s.proc node.data).processState = .running
  · rw [if_pos hstate]
    by_cases hself : (s.proc node.data).processState = .running
    · dsimp only [listPushback, listRemove]
      rw [if_pos hself]
      exact hyield _ rfl rfl ⟨⟨s.nextNode, node.data⟩, rfl, rfl⟩
    · dsimp only [listPushback, listRemove]
      rw [if_neg hself]
      exact hyield _ rfl rfl ⟨⟨s.nextNode, node.data⟩, rfl, rfl⟩
  · rw [if_neg hstate]
    exact ⟨rfl, fun p => ⟨(s.proc p).context, rfl⟩, Or.inl rfl⟩

/-- The priority an accepted `SET_PRIORITY` gives to an owner waits in its mutex. -/
theorem SetsPriority.saved {processId priority : Int} (h : SetsPriority s p processId priority)
    (howners : Owners s) (howns : Owns s p i)
    (hstep : s.step (.call (.setPriority processId priority)) = some s') :
    Owns s' p i ∧ (s'.res.mutexes i).savedOwnerPriority = priority := by
  obtain ⟨⟨hmin, hmax⟩, node, hnode, rfl, hdormant⟩ := h
  obtain ⟨-, rfl⟩ := call_eq_some hstep
  have hid := howners.ownedMutexId_eq howns
  have hsome := howners.owns_some howns
  have hrange : ¬ (priority < minPriorityValue ∨ maxPriorityValue < priority) := by omega
  show Owns (s.setPriority processId priority).1 node.data i ∧ _
  have heq : s.setPriority processId priority = (s.setMutex i { s.res.mutexes i with
      savedOwnerPriority := priority }).requeued node := by
    unfold setPriority withProcess
    rw [hnode]
    dsimp only
    rw [if_neg hrange, if_neg hdormant, if_pos hsome, hid, howners.findMutexById howns.1]
    rfl
  obtain ⟨hres, hrecords, -⟩ := requeued_spec (s.setMutex i { s.res.mutexes i with
    savedOwnerPriority := priority }) node
  rw [← heq] at hres hrecords
  obtain ⟨k, hk⟩ := hrecords node.data
  have hmutex : (s.setPriority processId priority).1.res.mutexes i
      = { s.res.mutexes i with savedOwnerPriority := priority } := by
    rw [hres]
    exact Function.update_self _ _ _
  refine ⟨⟨?_, ?_⟩, ?_⟩
  · rw [hres]
    exact howns.1
  · rw [hk, hmutex]
    exact howns.2
  · show ((s.setPriority processId priority).1.res.mutexes i).savedOwnerPriority = priority
    rw [hmutex]

/-! ## Runs -/

/-- The priority that waits for process `p` after an action in state `s`, when `v` waited before it. -/
def priorityAfter (s : Pcb) (p : Nat) (v : Int) : Action → Int
  | .call (.setPriority processId priority) =>
    match s.isProcessIdExisted processId with
    | some node =>
      if node.data = p ∧ (s.proc p).processState ≠ .dormant ∧ minPriorityValue ≤ priority
          ∧ priority ≤ maxPriorityValue then priority
      else v
    | none => v
  | _ => v

/-- The last priority `SET_PRIORITY` has given to process `p` in a run, and `v` if there is none. -/
def lastPriority (p : Nat) : Int → Pcb → List Action → Int
  | v, _, [] => v
  | v, s, e :: es =>
    match s.step e with
    | none => v
    | some s' => lastPriority p (s.priorityAfter p v e) s' es

theorem priorityAfter_cases (s : Pcb) (p : Nat) (v : Int) (e : Action) :
    (∃ processId priority, e = .call (.setPriority processId priority)
        ∧ SetsPriority s p processId priority ∧ s.priorityAfter p v e = priority)
      ∨ s.priorityAfter p v e = v ∧ ∀ processId priority, e = .call (.setPriority processId priority) →
        ¬ SetsPriority s p processId priority := by
  by_cases he : ∃ processId priority, e = .call (.setPriority processId priority)
  · obtain ⟨processId, priority, rfl⟩ := he
    unfold priorityAfter
    dsimp only
    cases hnode : s.isProcessIdExisted processId with
    | none =>
        refine Or.inr ⟨rfl, fun processId' priority' heq => ?_⟩
        cases heq
        rintro ⟨-, node, hnode', -⟩
        rw [hnode] at hnode'
        cases hnode'
    | some node =>
        dsimp only
        by_cases hsets : node.data = p ∧ (s.proc p).processState ≠ .dormant ∧ minPriorityValue ≤ priority
            ∧ priority ≤ maxPriorityValue
        · rw [if_pos hsets]
          exact Or.inl ⟨processId, priority, rfl, ⟨hsets.2.2, node, hnode, hsets.1, hsets.2.1⟩, rfl⟩
        · rw [if_neg hsets]
          refine Or.inr ⟨rfl, fun processId' priority' heq => ?_⟩
          cases heq
          rintro ⟨hrange, node', hnode', hp, hdormant⟩
          rw [hnode] at hnode'
          cases hnode'
          exact hsets ⟨hp, hdormant, hrange⟩
  · refine Or.inr ⟨?_, fun processId priority heq => absurd ⟨processId, priority, heq⟩ he⟩
    unfold priorityAfter
    split
    · next processId priority => exact absurd ⟨processId, priority, rfl⟩ he
    · rfl

/-- A call that sets no priority of the process it names is refused. -/
theorem setPriority_refused {processId priority : Int} {node : Node}
    (hnode : s.isProcessIdExisted processId = some node) (h : ¬ SetsPriority s node.data processId priority)
    (hstep : s.step (.call (.setPriority processId priority)) = some s') : s' = s := by
  obtain ⟨-, rfl⟩ := call_eq_some hstep
  show (s.setPriority processId priority).1 = s
  unfold setPriority withProcess
  rw [hnode]
  dsimp only
  by_cases hrange : priority < minPriorityValue ∨ maxPriorityValue < priority
  · rw [if_pos hrange]
    rfl
  rw [if_neg hrange]
  by_cases hdormant : (s.proc node.data).processState = .dormant
  · rw [if_pos hdormant]
    rfl
  · exact absurd ⟨by omega, node, hnode, rfl, hdormant⟩ h

/-- A step that neither sets the priority of process `p` nor starts it. -/
theorem OwnPriority.step {e : Action} {v : Int} (h : OwnPriority s p v) (hlt : p < s.nextProc)
    (hsound : Sound s) (hlocks : LockInv s) (hguard : RespectsLocks s e) (hstep : s.step e = some s')
    (hsets : ∀ processId priority node, e = .call (.setPriority processId priority) →
      s.isProcessIdExisted processId = some node → node.data ≠ p)
    (hstarts : StartsProcess s p e → (s.proc p).processState ≠ .dormant) : OwnPriority s' p v := by
  have hleaves : Permits (leavingPriority p) s e := MayAct.permits
    { start := fun processId node he hnode hdormant heq =>
        hstarts (by subst he; exact ⟨node, hnode, heq⟩) (heq ▸ hdormant)
      delayedStart := fun processId delayTime node he hnode hdormant heq =>
        hstarts (by subst he; exact ⟨node, hnode, heq⟩) (heq ▸ hdormant)
      prioritize := fun processId priority node he hnode => hsets processId priority node he hnode }
  exact (Moves.keep (I := fun t => (LockInv t ∧ WaitersSince s e t) ∧ p < t.nextProc ∧ OwnPriority t p v)
    (fun t t' hs ht hm =>
      have hm' := hm.mono (Permit.inf_le_left _ _)
      ⟨⟨ht.1.1.move hs ht.1.2 hm', ht.1.2.move hm'⟩, ht.2.1.trans_le hm.nextProc_le,
        ht.2.2.move ht.2.1 hs ht.1.1 ht.1.2 hm⟩)
    (step_moves hsound.running ((hguard.permits hlocks hsound hstep).inf hleaves) hstep) hsound
    ⟨⟨hlocks, fun _ _ hp => Or.inr hp⟩, hlt, h⟩).2.2.2

/-- An owner owns its mutex after a step, or has given it back. -/
theorem LockInv.owns_or_gave {e : Action} (hlocks : LockInv s) (hsound : Sound s) (hlt : p < s.nextProc)
    (hguard : RespectsLocks s e) (hstep : s.step e = some s') (howns : Owns s p i) : OwnsOrGave e p i s' :=
  (Moves.keep (I := fun t => (LockInv t ∧ WaitersSince s e t) ∧ p < t.nextProc ∧ OwnsOrGave e p i t)
    (fun _ _ hs ht hm =>
      have hm' := hm.mono (Permit.inf_le_left _ _)
      ⟨⟨ht.1.1.move hs ht.1.2 hm', ht.1.2.move hm'⟩, ht.2.1.trans_le hm.nextProc_le,
        ht.2.2.move ht.2.1 hs ht.1.1 ht.1.2 hm⟩)
    (step_moves hsound.running ((hguard.permits hlocks hsound hstep).inf (permits_handling s e)) hstep) hsound
    ⟨⟨hlocks, fun _ _ hp => Or.inr hp⟩, hlt, Or.inl howns⟩).2.2.2

theorem AtCeiling.step {e : Action} (h : AtCeiling s) (hsound : Sound s) (hlocks : LockInv s)
    (hguard : RespectsLocks s e) (hstep : s.step e = some s') : AtCeiling s' :=
  (Moves.keep (I := fun t => (LockInv t ∧ WaitersSince s e t) ∧ AtCeiling t)
    (fun _ _ hs ht hm => ⟨⟨ht.1.1.move hs ht.1.2 hm, ht.1.2.move hm⟩, ht.2.move hs ht.1.1 ht.1.2 hm⟩)
    (step_moves hsound.running (hguard.permits hlocks hsound hstep) hstep) hsound
    ⟨⟨hlocks, fun _ _ hp => Or.inr hp⟩, h⟩).2.2

/-- The run of the mutex services respects locks. -/
theorem MutexInv.respectsLocks {e : Action} (h : MutexInv s) (he : CallsMutexService e) :
    RespectsLocks s e := by
  have hwaiter : ∀ {p}, AwaitsMutex s p → ∃ i, MutexWaiter s i p := fun ⟨i, hin⟩ => ⟨i, h.waiters.waiter i _ hin⟩
  have huntimed : ∀ {p}, AwaitsMutex s p → Untimed (s.proc p) := by
    intro p hp
    obtain ⟨i, hw⟩ := hwaiter hp
    exact h.waiters.untimed p hw.allocated
  cases e with
  | loop =>
      intro _ _
      refine ⟨fun n _ hp hdue => ?_, fun n _ hp hdue => hdue.1 (huntimed hp).timer, ?_⟩
      · rcases hdue.2.1 with hperiod | ⟨hdelay, -⟩
        · exact hperiod (huntimed hp).period
        · exact hdelay (huntimed hp).delay
      · rintro p ⟨index, -, hin⟩
        rw [h.waiters.others (.queuingPort index) fun i hq => WaitList.noConfusion hq] at hin
        exact absurd (List.mem_of_mem_take hin) List.not_mem_nil
  | fault errorCode a l => exact absurd he id
  | call service =>
      cases service with
      | resume processId =>
          intro node hnode hsuspended hp
          obtain ⟨i, hw⟩ := hwaiter hp
          rw [hw.notSuspended] at hsuspended
          cases hsuspended
      | releaseMutex | unlockPreemption | resetMutex | stopSelf => exact fun hgives => absurd trivial hgives
      | createProcess | createErrorHandler | createMutex | setPartitionMode | acquireMutex | lockPreemption
      | start | setPriority | suspend => exact fun _ p hwakes => absurd hwakes id
      | _ => exact absurd he id
  | mainReturn => trivial
  | kernel => trivial

/-- An owner's own priority follows `SET_PRIORITY` through every step. -/
theorem LockInv.ownPriority_step {e : Action} {v : Int} (h : LockInv s) (hsound : Sound s)
    (hlt : p < s.nextProc) (hguard : RespectsLocks s e) (hstep : s.step e = some s') (howns : Owns s p i)
    (hsaved : (s.res.mutexes i).savedOwnerPriority = v) : OwnPriority s' p (s.priorityAfter p v e) := by
  have hactive := (h.owner p hlt (h.owners.owns_some howns)).active.2
  rcases priorityAfter_cases s p v e with ⟨processId, priority, rfl, hsets, hafter⟩ | ⟨hafter, hnot⟩
  · rw [hafter]
    obtain ⟨howns', hsaved'⟩ := hsets.saved h.owners howns hstep
    exact Or.inr ⟨i, howns', hsaved'⟩
  rw [hafter]
  by_cases hnamed : ∃ processId priority node, e = .call (.setPriority processId priority)
      ∧ s.isProcessIdExisted processId = some node ∧ node.data = p
  · obtain ⟨processId, priority, node, rfl, hnode, rfl⟩ := hnamed
    rw [setPriority_refused hnode (hnot processId priority rfl) hstep]
    exact Or.inr ⟨i, howns, hsaved⟩
  · exact OwnPriority.step (Or.inr ⟨i, howns, hsaved⟩) hlt hsound h hguard hstep
      (fun processId priority node he hnode hp => hnamed ⟨processId, priority, node, he, hnode, hp⟩)
      fun _ => hactive

/-- What runs of the mutex services keep. -/
structure CeilingInv (s : Pcb) : Prop where
  sound : Sound s
  mutex : MutexInv s
  locks : LockInv s
  ceiling : AtCeiling s

theorem CeilingInv.step {e : Action} (h : CeilingInv s) (he : CallsMutexService e)
    (hstep : s.step e = some s') : CeilingInv s' := by
  have hguard := h.mutex.respectsLocks he
  have hmutex := Moves.keep (A := mutexPermit (fun _ => True) fun _ => True) (I := MutexInv)
    (fun _ _ hs hinv hm => hinv.move hs hm) (step_moves h.sound.running
      (permits_mutexPermit he (fun _ _ _ _ => trivial) fun _ _ _ _ _ => trivial) hstep) h.sound h.mutex
  exact ⟨hmutex.1, hmutex.2, h.locks.step h.sound hguard hstep,
    h.ceiling.step h.sound h.locks hguard hstep⟩

theorem CeilingInv.run {ok : Pcb → Action → Prop} {es : List Action} (h : CeilingInv s)
    (hrun : Transition.GuardedRun Pcb.step ok s es s') (hok : ∀ t e, ok t e → CallsMutexService e) :
    CeilingInv s' :=
  hrun.invariant (fun _ _ _ ht ho hstep => ht.step (hok _ _ ho) hstep) h

theorem ceilingInv_startPartitionOs (period identifier : Int) (conf : PartitionConf) (maxErrors : Nat)
    (krnl : Krnl) (memory : Nat → Process) (lastTick : Nat) :
    CeilingInv (partitionInit period identifier conf maxErrors krnl memory lastTick).startPartitionOs := by
  have hceiling : AtCeiling (partitionInit period identifier conf maxErrors krnl memory
      lastTick).startPartitionOs := (Moves.keep (I := fun s => (LockInv s ∧ WaitersSince _ .mainReturn s) ∧ AtCeiling s)
    (fun _ _ hs h hm => ⟨⟨h.1.1.move hs h.1.2 hm, h.1.2.move hm⟩, h.2.move hs h.1.1 h.1.2 hm⟩)
    (startPartitionOs_moves _) (sound_partitionInit period identifier conf maxErrors krnl memory lastTick)
    ⟨⟨lockInv_partitionInit _ _ _ _ _ _ _, fun _ _ hp => Or.inr hp⟩,
      fun p hp => absurd hp (Nat.not_lt_zero p)⟩).2.2
  exact ⟨sound_startPartitionOs _ _ _ _ _ _ _, mutexInv_startPartitionOs _ _ _ _ _ _ _,
    lockInv_startPartitionOs _ _ _ _ _ _ _, hceiling⟩

/-- The priority of a process that has just become an owner waits in the mutex. -/
theorem CeilingInv.saved_of_becomes {e : Action} (h : CeilingInv s) (he : CallsMutexService e)
    (hlt : p < s.nextProc) (hstep : s.step e = some s') (hbefore : ¬ Owns s p i) (howns : Owns s' p i) :
    (s'.res.mutexes i).savedOwnerPriority = (s.proc p).currentPriority := by
  have hguard := h.mutex.respectsLocks he
  have hlocks' := h.locks.step h.sound hguard hstep
  have hid := hlocks'.owners.ownedMutexId_eq howns
  rcases h.locks.owners.owned p hlt with hno | ⟨j, hj, hown⟩
  · -- a step that hands mutexes over neither sets a priority nor starts a process
    have hkind : TakesMutex e ∨ GivesMutexBack e := by
      by_contra hnot
      rw [not_or] at hnot
      have hsame := LockInv.ownership_stays h.sound hlt hnot.1 hnot.2 hstep
      exact hlocks'.owners.owns_some howns (hsame.trans hno)
    have hown : OwnPriority s' p (s.proc p).currentPriority := by
      refine OwnPriority.step (Or.inl ⟨hno, rfl⟩) hlt h.sound h.locks hguard hstep ?_ fun hstarts => ?_
      · rintro processId priority node rfl
        exact absurd hkind (not_or.mpr ⟨id, id⟩)
      · cases e with
        | call service =>
            cases service <;> first | exact absurd hstarts id | exact absurd hkind (not_or.mpr ⟨id, id⟩)
        | _ => exact absurd hstarts id
    rcases hown with ⟨hno', -⟩ | ⟨j, howns', hsaved⟩
    · exact absurd hno' (hlocks'.owners.owns_some howns)
    · obtain rfl := hlocks'.noHoldAndWait.one p i j howns howns'
      exact hsaved
  · -- who owns another mutex does not come to own this one
    have howns₀ : Owns s p j := ⟨hj, hown.trans (h.locks.owners.ids j hj).symm⟩
    rcases h.locks.owns_or_gave h.sound hlt hguard hstep howns₀ with howns' | ⟨-, hno, -⟩
    · obtain rfl := hlocks'.noHoldAndWait.one p i j howns howns'
      exact absurd howns₀ hbefore
    · exact absurd hno (hlocks'.owners.owns_some howns)

/-- The priority that waits in a mutex while one process owns it. -/
theorem CeilingInv.saved_of_phase {es : List Action} {v : Int} (h : CeilingInv s) (hlt : p < s.nextProc)
    (hphase : Transition.GuardedRun Pcb.step (fun t e => CallsMutexService e ∧ Owns t p i) s es s')
    (hend : Owns s' p i) (hsaved : (s.res.mutexes i).savedOwnerPriority = v) :
    p < s'.nextProc ∧ (s'.res.mutexes i).savedOwnerPriority = lastPriority p v s es := by
  induction hphase generalizing v with
  | nil s => exact ⟨hlt, hsaved⟩
  | @cons s t s' e es hok hstep hrest ih =>
      obtain ⟨he, howns⟩ := hok
      have hguard := h.mutex.respectsLocks he
      have ht := h.step he hstep
      have hlt' : p < t.nextProc := (Moves.keep (I := fun t => p < t.nextProc)
        (fun _ _ _ hlt hm => hlt.trans_le hm.nextProc_le)
        (step_moves h.sound.running (permits_all s e) hstep) h.sound hlt).2
      have howns' : Owns t p i := by
        cases hrest with
        | nil => exact hend
        | cons hok' => exact hok'.2
      have hsaved' : (t.res.mutexes i).savedOwnerPriority = s.priorityAfter p v e := by
        rcases h.locks.ownPriority_step h.sound hlt hguard hstep howns hsaved with ⟨hno, -⟩ | ⟨j, hj, hsaved'⟩
        · exact absurd hno (ht.locks.owners.owns_some howns')
        · obtain rfl := ht.locks.noHoldAndWait.one p i j howns' hj
          exact hsaved'
      have hafter := ih ht hlt' hend hsaved'
      rwa [lastPriority, hstep]

/-- In every run of the mutex services an owner has the priority of its mutex, and gets back, when it gives
    the mutex up, the priority the last `SET_PRIORITY` on it gave it meanwhile, or else the one it had when
    it became the owner. -/
theorem owners_run_at_the_ceiling (period identifier : Int) (conf : PartitionConf) (maxErrors : Nat)
    (krnl : Krnl) (memory : Nat → Process) (lastTick : Nat) {es₀ : List Action} {s₀ : Pcb}
    (hrun : Transition.GuardedRun step (fun _ e => CallsMutexService e)
      (partitionInit period identifier conf maxErrors krnl memory lastTick).startPartitionOs es₀ s₀) :
    (∀ p < s₀.nextProc, ∀ i, Owns s₀ p i →
        (s₀.proc p).currentPriority = (s₀.res.mutexes i).mutexPriority)
      ∧ ∀ p i e₀ s₁ es u e u', p < s₀.nextProc → ¬ Owns s₀ p i → CallsMutexService e₀ →
        s₀.step e₀ = some s₁ → Owns s₁ p i →
          Transition.GuardedRun step (fun t e => CallsMutexService e ∧ Owns t p i) s₁ es u → Owns u p i →
            CallsMutexService e → u.step e = some u' → ¬ Owns u' p i →
              (u'.proc p).currentPriority = lastPriority p (s₀.proc p).currentPriority s₁ es := by
  have h := (ceilingInv_startPartitionOs period identifier conf maxErrors krnl memory lastTick).run hrun
    fun _ _ he => he
  refine ⟨h.ceiling, fun p i e₀ s₁ es u e u' hlt hbefore he₀ hstep₀ howns₁ hphase hownsu he hstep hafter => ?_⟩
  have h₁ := h.step he₀ hstep₀
  have hlt₁ : p < s₁.nextProc := (Moves.keep (I := fun t => p < t.nextProc)
    (fun _ _ _ hlt hm => hlt.trans_le hm.nextProc_le)
    (step_moves h.sound.running (permits_all s₀ e₀) hstep₀) h.sound hlt).2
  have hsaved₁ := h.saved_of_becomes he₀ hlt hstep₀ hbefore howns₁
  obtain ⟨hltu, hsavedu⟩ := h₁.saved_of_phase hlt₁ hphase hownsu hsaved₁
  have hu := h₁.run hphase fun _ _ ho => ho.1
  have hguard := hu.mutex.respectsLocks he
  rcases hu.locks.owns_or_gave hu.sound hltu hguard hstep hownsu with howns' | ⟨hgives, hno, -⟩
  · exact absurd howns' hafter
  · have hown := hu.locks.ownPriority_step hu.sound hltu hguard hstep hownsu hsavedu
    have hlast : u.priorityAfter p (lastPriority p (s₀.proc p).currentPriority s₁ es) e
        = lastPriority p (s₀.proc p).currentPriority s₁ es := by
      rcases priorityAfter_cases u p (lastPriority p (s₀.proc p).currentPriority s₁ es) e with
        ⟨processId, priority, rfl, -⟩ | ⟨hsame, -⟩
      · exact absurd hgives id
      · exact hsame
    rw [hlast] at hown
    rcases hown with ⟨-, hpriority⟩ | ⟨j, hj, -⟩
    · exact hpriority
    · exact absurd hno ((hu.step he hstep).locks.owners.owns_some hj)

/-- Process 0 acquires mutex 2, is given priority 45 while it owns it, and releases it. -/
def prioritizedOwner : List Action :=
  [.loop, .call (.createProcess (aperiodicProcess "A".toList 40)), .call (.createMutex "M".toList 60 0),
    .call (.start 1), .call (.setPartitionMode 3), .loop]

theorem owners_run_at_the_ceiling_prioritized :
    ∃ s₀ s₁ s₂ u u', Transition.run step (defaultPartition 1) prioritizedOwner = some s₀
      ∧ s₀.step (.call (.acquireMutex 2 0)) = some s₁ ∧ Owns s₁ 0 1
      ∧ (s₁.proc 0).currentPriority = (s₁.res.mutexes 1).mutexPriority
      ∧ s₁.step (.call (.setPriority 1 45)) = some s₂ ∧ s₂.step .loop = some u
      ∧ u.step (.call (.releaseMutex 2)) = some u' ∧ (u'.proc 0).currentPriority = 45
      ∧ lastPriority 0 (s₀.proc 0).currentPriority s₁ [.call (.setPriority 1 45), .loop] = 45 := by
  have hrun : ((Transition.run step (defaultPartition 1) prioritizedOwner).bind fun s₀ =>
      (s₀.step (.call (.acquireMutex 2 0))).bind fun s₁ => (s₁.step (.call (.setPriority 1 45))).bind fun s₂ =>
        (s₂.step .loop).bind fun u => (u.step (.call (.releaseMutex 2))).map fun u' =>
          (s₀.nextProc, s₁.nextProc, s₁.res.mutexCount, (s₁.res.mutexes 1).mutexId,
            [s₀, s₁, s₂, u, u'].map fun t => (t.proc 0).ownedMutexId))
      = some (1, 1, 2, 2, [noMutexOwned, 2, 2, 2, noMutexOwned]) := by decide
  have hids : ((Transition.run step (defaultPartition 1) prioritizedOwner).bind fun s₀ =>
      (s₀.step (.call (.acquireMutex 2 0))).bind fun s₁ => (s₁.step (.call (.setPriority 1 45))).bind fun s₂ =>
        (s₂.step .loop).bind fun u => (u.step (.call (.releaseMutex 2))).map fun u' =>
          ([s₂, u].map fun t => (t.res.mutexCount, (t.res.mutexes 1).mutexId),
            (s₀.res.mutexes 1).mutexId, (u'.res.mutexes 1).mutexId,
            lastPriority 0 (s₀.proc 0).currentPriority s₁ [.call (.setPriority 1 45), .loop]))
      = some ([(2, 2), (2, 2)], 2, 2, 45) := by decide
  obtain ⟨s₀, hs₀, hrun⟩ := Option.bind_eq_some_iff.mp hrun
  obtain ⟨s₁, hs₁, hrun⟩ := Option.bind_eq_some_iff.mp hrun
  obtain ⟨s₂, hs₂, hrun⟩ := Option.bind_eq_some_iff.mp hrun
  obtain ⟨u, hu, hrun⟩ := Option.bind_eq_some_iff.mp hrun
  obtain ⟨u', hu', hfields⟩ := Option.map_eq_some_iff.mp hrun
  rw [hs₀, Option.bind_some, hs₁, Option.bind_some, hs₂, Option.bind_some, hu, Option.bind_some, hu',
    Option.map_some] at hids
  simp only [Option.some.injEq, Prod.mk.injEq, List.map_cons, List.map_nil, List.cons.injEq] at hfields hids
  obtain ⟨hnext, hnext₁, hcount₁, hid₁, hno₀, hown₁, hown₂, hownu, hnou', -⟩ := hfields
  obtain ⟨⟨⟨hcount₂, hid₂⟩, ⟨hcountu, hidu⟩, -⟩, hid₀, hidu', hlast⟩ := hids
  have howns : ∀ {t : Pcb}, t.res.mutexCount = 2 → (t.res.mutexes 1).mutexId = 2 →
      (t.proc 0).ownedMutexId = 2 → Owns t 0 1 := fun hcount hid hown =>
    ⟨by rw [hcount]; exact Nat.one_lt_two, hown.trans hid.symm⟩
  have hguarded := Transition.GuardedRun.of_run (P := CallsMutexService) hs₀ (by
    simp [prioritizedOwner, CallsMutexService, aperiodicProcess]
    rfl)
  have hphase : Transition.GuardedRun step (fun t e => CallsMutexService e ∧ Owns t 0 1) s₁
      [.call (.setPriority 1 45), .loop] u :=
    .cons ⟨trivial, howns hcount₁ hid₁ hown₁⟩ hs₂ (.cons ⟨trivial, howns hcount₂ hid₂ hown₂⟩ hu (.nil u))
  have hacquire : CallsMutexService (.call (.acquireMutex 2 0)) := Or.inl rfl
  have hceiling := (owners_run_at_the_ceiling 50 1 defaultPartitionConf 10 defaultKrnl (fun _ => zeroProcess) 0
    (hguarded.snoc hacquire hs₁)).1 0 (by rw [hnext₁]; exact Nat.one_pos) 1 (howns hcount₁ hid₁ hown₁)
  have hreturn := (owners_run_at_the_ceiling 50 1 defaultPartitionConf 10 defaultKrnl (fun _ => zeroProcess) 0
    hguarded).2 0 1 _ s₁ _ u (.call (.releaseMutex 2)) u' (by rw [hnext]; exact Nat.one_pos)
      (fun h => by
        have hown := h.2
        rw [hno₀, hid₀] at hown
        cases hown) hacquire hs₁ (howns hcount₁ hid₁ hown₁)
      hphase (howns hcountu hidu hownu) trivial hu' (fun h => by
        have hown := h.2
        rw [hnou', hidu'] at hown
        cases hown)
  exact ⟨s₀, s₁, s₂, u, u', hs₀, hs₁, howns hcount₁ hid₁ hown₁, hceiling, hs₂, hu, hu',
    hreturn.trans hlast, hlast⟩

end Pcb

end UcxArinc
