import UcxArinc.Proofs.RecordChanges

set_option autoImplicit false

/-! # The waiting queues

What holds of the lists and their counters whatever a partition does: `WAITING_PROCESSES` counts the
members of a resource's lists, a process joins a list only by waiting in it, and nobody is linked, queued
or current that was not so before, except a process just created. -/

namespace UcxArinc

namespace Pcb

variable {A : Permit} {s s' : Pcb}

/-! ## Counting the waiters -/

/-- The number of processes in the lists of a resource. -/
def waitersIn (lists : WaitList → List Nat) (k : WaitKind) (i : Nat) : Nat :=
  ((listsOf k i).map fun q => (lists q).length).sum

/-- The counters count the members of the lists. -/
def Counted (s : Pcb) : Prop := ∀ k i, s.waitingCount (k, i) = waitersIn s.waitingProcesses k i

theorem mem_listsOf {q : WaitList} {k : WaitKind} {i : Nat} :
    q ∈ listsOf k i ↔ q.kind = some k ∧ q.index = i := by
  cases k <;> cases q <;> simp [listsOf, WaitList.kind, WaitList.index]

/-- The lists of other resources do not count. -/
theorem waitersIn_update_of_not_mem {lists : WaitList → List Nat} {q : WaitList} {k : WaitKind}
    {i : Nat} (h : q ∉ listsOf k i) (l : List Nat) :
    waitersIn (Function.update lists q l) k i = waitersIn lists k i := by
  unfold waitersIn
  refine congrArg List.sum (List.map_congr_left fun q' hq' => ?_)
  rw [Function.update_of_ne]
  rintro rfl
  exact h hq'

/-- Another list of the resource. -/
theorem waitersIn_update_of_mem {lists : WaitList → List Nat} {q : WaitList} {k : WaitKind} {i : Nat}
    (h : q ∈ listsOf k i) (l : List Nat) :
    waitersIn (Function.update lists q l) k i + (lists q).length
      = waitersIn lists k i + l.length := by
  unfold waitersIn
  cases k
  case buffer =>
    simp only [listsOf, List.mem_cons, List.not_mem_nil, or_false] at h
    rcases h with rfl | rfl
    · simp only [listsOf, List.map_cons, List.map_nil, List.sum_cons, List.sum_nil,
        Function.update_self]
      rw [Function.update_of_ne (WaitList.noConfusion : WaitList.bufferWriters i ≠ .bufferReaders i)]
      omega
    · simp only [listsOf, List.map_cons, List.map_nil, List.sum_cons, List.sum_nil,
        Function.update_self]
      rw [Function.update_of_ne (WaitList.noConfusion : WaitList.bufferReaders i ≠ .bufferWriters i)]
      omega
  all_goals
    rw [listsOf, List.mem_singleton] at h
    subst h
    simp only [listsOf, List.map_cons, List.map_nil, List.sum_cons, List.sum_nil, Function.update_self]
    omega

/-- A list and the counter of its resource change together. -/
theorem Counted.update (h : Counted s) {q : WaitList} {l : List Nat} {d : Int}
    (hlength : (l.length : Int) = (s.waitingProcesses q).length + d)
    (hlists : s'.waitingProcesses = Function.update s.waitingProcesses q l)
    (hcounts : s'.waitingCount = s.countAfter q d) : Counted s' := by
  intro k i
  rw [hlists, hcounts]
  by_cases hq : q ∈ listsOf k i
  · have hsum := @waitersIn_update_of_mem s.waitingProcesses _ _ _ hq l
    obtain ⟨hkind, rfl⟩ := mem_listsOf.mp hq
    unfold countAfter
    rw [hkind]
    dsimp only
    rw [Function.update_self, h k q.index]
    omega
  · rw [waitersIn_update_of_not_mem hq, countAfter_of_ne, h k i]
    rw [mem_listsOf, not_and_or] at hq
    exact hq

/-- A process taken out of a list is counted out. -/
theorem Counted.unlink (h : Counted s) (p : Nat) (q : WaitList) : Counted (s.unlink p q) := by
  unfold Pcb.unlink
  split
  · next hmem =>
      rw [addWaitingCount_eq]
      refine h.update (q := q) (d := -1) ?_ rfl rfl
      have hpos := List.length_pos_of_mem hmem
      rw [List.length_erase_of_mem hmem]
      omega
  · exact h

/-- Lists only shrink, and stay counted. -/
def Shrinks (s s' : Pcb) : Prop :=
  (∀ q, (s'.waitingProcesses q).Sublist (s.waitingProcesses q)) ∧ (Counted s → Counted s')

theorem Shrinks.refl (s : Pcb) : Shrinks s s := ⟨fun _ => List.Sublist.refl _, id⟩

theorem Shrinks.trans {s'' : Pcb} (h : Shrinks s s') (h' : Shrinks s' s'') : Shrinks s s'' :=
  ⟨fun q => (h'.1 q).trans (h.1 q), fun hc => h'.2 (h.2 hc)⟩

theorem Shrinks.same (hlists : s'.waitingProcesses = s.waitingProcesses)
    (hcounts : s'.waitingCount = s.waitingCount) : Shrinks s s' := by
  refine ⟨fun q => by rw [hlists], fun h k i => ?_⟩
  rw [hlists, hcounts]
  exact h k i

theorem foldl_shrinks {α : Type} {f : Pcb → α → Pcb} (hf : ∀ s a, Shrinks s (f s a)) (l : List α)
    (s : Pcb) : Shrinks s (l.foldl f s) := by
  induction l generalizing s with
  | nil => exact .refl s
  | cons a l ih => exact (hf s a).trans (ih _)

theorem unlink_shrinks (s : Pcb) (p : Nat) (q : WaitList) : Shrinks s (s.unlink p q) := by
  refine ⟨fun q' => ?_, fun h => h.unlink p q⟩
  unfold Pcb.unlink
  split
  · rw [addWaitingCount_eq]
    dsimp only
    by_cases hq : q' = q
    · rw [hq, Function.update_self]
      exact List.erase_sublist
    · rw [Function.update_of_ne hq]
  · exact List.Sublist.refl _

theorem leaveQueue_shrinks (p : Nat) (s : Pcb) (k : WaitKind) : Shrinks s (leaveQueue p s k) := by
  unfold leaveQueue
  split
  · exact .refl s
  · exact (foldl_shrinks (fun s q => unlink_shrinks s p q) _ s).trans (.same rfl rfl)

theorem stopped_shrinks (s : Pcb) (p : Nat) : Shrinks s (s.stopped p) := by
  unfold stopped
  split
  · exact (foldl_shrinks (fun s k => leaveQueue_shrinks p s k) _ s).trans (.same rfl rfl)
  · exact .same rfl rfl

theorem wakeFirst_shrinks {q : WaitList} {cancel : Bool} {p : Nat}
    (h : s.wakeFirst q cancel = some (p, s')) : Shrinks s s' := by
  obtain ⟨rest, hlist, rfl⟩ := wakeFirst_eq_some h
  refine ⟨fun q' => ?_, fun hc => hc.update (q := q) (l := rest) (d := -1) ?_ rfl rfl⟩
  · dsimp only
    by_cases hq : q' = q
    · rw [hq, Function.update_self, hlist]
      exact List.sublist_cons_self p rest
    · rw [Function.update_of_ne hq]
  · rw [hlist, List.length_cons]
    push_cast
    omega

/-- A resource is created: its lists are empty and its counter is 0. -/
theorem freshLists_shrinks (s : Pcb) (k : WaitKind) (i : Nat) :
    Shrinks s ((listsOf k i).foldl freshWaitList s) := by
  have hfresh : ∀ t : Pcb, ∀ q : WaitList, ∀ q' : WaitList,
      ((t.freshWaitList q).waitingProcesses q').Sublist (t.waitingProcesses q') := by
    intro t q q'
    rw [freshWaitList_eq]
    dsimp only
    by_cases hq : q' = q
    · rw [hq, Function.update_self]
      exact List.nil_sublist _
    · rw [Function.update_of_ne hq]
  refine ⟨?_, fun h k' i' => ?_⟩
  · generalize listsOf k i = l
    induction l generalizing s with
    | nil => exact fun q => List.Sublist.refl _
    | cons q l ih => exact fun q' => (ih (s.freshWaitList q) q').trans (hfresh s q q')
  · by_cases hsame : k' = k ∧ i' = i
    · obtain ⟨rfl, rfl⟩ := hsame
      cases k' <;>
        simp [listsOf, freshWaitList_eq, countFresh, waitersIn, WaitList.kind, WaitList.index]
    · -- the lists of the other resources and their counters stay
      have hkeep : ∀ (l : List WaitList) (t : Pcb), (∀ q ∈ l, q.kind = some k ∧ q.index = i) →
          (l.foldl freshWaitList t).waitingCount (k', i') = t.waitingCount (k', i')
            ∧ waitersIn (l.foldl freshWaitList t).waitingProcesses k' i'
              = waitersIn t.waitingProcesses k' i' := by
        intro l
        induction l with
        | nil => exact fun _ _ => ⟨rfl, rfl⟩
        | cons q l ih =>
            intro t hl
            obtain ⟨hkind, hindex⟩ := hl q List.mem_cons_self
            obtain ⟨hcount, hwaiters⟩ := ih (t.freshWaitList q) fun q' hq' =>
              hl q' (List.mem_cons_of_mem _ hq')
            have hother : ¬ (q.kind = some k' ∧ q.index = i') := by
              rintro ⟨hk, hi⟩
              rw [hkind] at hk
              rw [hindex] at hi
              exact hsame ⟨(Option.some.inj hk).symm, hi.symm⟩
            rw [List.foldl_cons, hcount, hwaiters, freshWaitList_eq]
            exact ⟨countFresh_of_ne (not_and_or.mp hother),
              waitersIn_update_of_not_mem (mem_listsOf.not.mpr hother) _⟩
      obtain ⟨hcount, hwaiters⟩ := hkeep (listsOf k i) s fun q hq => mem_listsOf.mp hq
      rw [hcount, hwaiters]
      exact h k' i'

/-! ## Joining a list -/

/-- Process `p` joins list `q`, and is counted. -/
def Joins (s s' : Pcb) (p : Nat) (q : WaitList) : Prop :=
  ∃ l, l.Perm (p :: s.waitingProcesses q)
    ∧ s'.waitingProcesses = Function.update s.waitingProcesses q l
    ∧ s'.waitingCount = s.countAfter q 1

theorem Joins.counted {p : Nat} {q : WaitList} (h : Joins s s' p q) (hc : Counted s) : Counted s' := by
  obtain ⟨l, hperm, hlists, hcounts⟩ := h
  refine hc.update (q := q) (d := 1) ?_ hlists hcounts
  rw [hperm.length_eq, List.length_cons]
  push_cast
  rfl

/-- A member of a list was one before, or has just joined. -/
theorem Joins.mem {p p' : Nat} {q q' : WaitList} (h : Joins s s' p q)
    (hp : p' ∈ s'.waitingProcesses q') : p' ∈ s.waitingProcesses q' ∨ p' = p ∧ q' = q := by
  obtain ⟨l, hperm, hlists, -⟩ := h
  rw [hlists] at hp
  by_cases hq : q' = q
  · subst hq
    rw [Function.update_self] at hp
    rcases List.mem_cons.mp (hperm.mem_iff.mp hp) with rfl | hin
    · exact Or.inr ⟨rfl, rfl⟩
    · exact Or.inl hin
  · rw [Function.update_of_ne hq] at hp
    exact Or.inl hp

theorem blocked_joins (s : Pcb) (p : Nat) (q : WaitList) (linked : Bool)
    (discipline : QueuingDiscipline) (timer : Option Int) (k : Context) :
    Joins s ((s.waitOn p q linked discipline timer).yieldToPartition p k).1 p q := by
  rw [blocked_eq]
  exact ⟨_, insertedWaiters_perm (s.modProc p (blockedRecord q linked timer)) q discipline p, rfl, rfl⟩

theorem blockedOnErrors_joins (s : Pcb) (p : Nat) (error : ErrorStatus) (k : Context) :
    Joins s (({ s.modProc p fun x => { x with
          processState := .waiting
          pendingError := error } with
        waitingProcesses := Function.update s.waitingProcesses .errorProcesses
          (p :: s.waitingProcesses .errorProcesses) } : Pcb).yieldToPartition p k).1 p
      .errorProcesses := by
  rw [blockedOnErrors_eq]
  exact ⟨_, List.Perm.refl _, rfl, rfl⟩

/-- Process `p`, which has to wait for mutex `i`, blocks on it. -/
structure BlocksOnMutex (A : Permit) (s s' : Pcb) (p i : Nat) : Prop where
  must : MustWaitForMutex s p i
  processState : (s'.proc p).processState = .waiting
  pointer : (s'.proc p).waiting .mutex = some i
  ownedMutexId : (s'.proc p).ownedMutexId = (s.proc p).ownedMutexId
  permitted : ∃ timer, A.block s p (.mutex i) timer

theorem blocked_onMutex {p i : Nat} {linked : Bool} {discipline : QueuingDiscipline}
    {timer : Option Int} {k : Context} (hmutex : MustWaitForMutex s p i ∧ linked = true)
    (hA : A.block s p (.mutex i) timer) : BlocksOnMutex A s
      ((s.waitOn p (.mutex i) linked discipline timer).yieldToPartition p k).1 p i := by
  obtain ⟨hmust, rfl⟩ := hmutex
  rw [blocked_eq]
  have hself : Function.update s.proc p
      { blockedRecord (.mutex i) true timer (s.proc p) with context := k } p
      = { blockedRecord (.mutex i) true timer (s.proc p) with context := k } :=
    Function.update_self _ _ _
  refine ⟨hmust, ?_, ?_, ?_, timer, hA⟩
  all_goals
    dsimp only
    rw [hself]
  · rfl
  · simp [blockedRecord, WaitList.kind, WaitList.index]
  · rfl

/-- A move lets the process that executes join a list, or no list grows. -/
theorem Move.queues (hm : Move A s s') : Shrinks s s' ∨ ∃ p q, Calls s p ∧ Joins s s' p q
    ∧ (∀ i, q = .mutex i → BlocksOnMutex A s s' p i) ∧ ∃ timer, A.block s p q timer := by
  cases hm with
  | frame hf => exact Or.inl (.same hf.waitingProcesses hf.waitingCount)
  | moveNode node p front follow hmovable =>
      obtain ⟨processes, current, heq, -, -⟩ := moveNode_eq s node p front follow
      rw [heq]
      exact Or.inl (.same rfl rfl)
  | block p q linked discipline timer k hcalls hkind hmutex hk hown hA =>
      refine Or.inr ⟨p, q, hcalls, blocked_joins s p q linked discipline timer k, ?_, timer, hA⟩
      rintro i rfl
      exact blocked_onMutex (hmutex i rfl) hA
  | blockOnErrors p error k hcalls hk hA =>
      exact Or.inr ⟨p, .errorProcesses, hcalls, blockedOnErrors_joins s p error k,
        fun i hi => WaitList.noConfusion hi, none, hA⟩
  | wake q cancel p hwake hq => exact Or.inl (wakeFirst_shrinks hwake)
  | handOver index mutexId hhand hidx hstate =>
      rcases handMutexOver_eq_some hhand with ⟨-, rfl⟩ | ⟨woken, t, node, hwake, -, rfl⟩
      · exact Or.inl (.refl _)
      · exact Or.inl ((wakeFirst_shrinks hwake).trans (.same rfl rfl))
  | acquire index p node mutexId hcalls hidx hnode hdata hstate hfree =>
      obtain ⟨processes, current, heq, -, -⟩ :=
        moveNode_eq (s.giveMutex index p mutexId) node p true true
      rw [heq]
      exact Or.inl (.same rfl rfl)
  | takeBack index p node follow mutexId hrun hidx hown hmovable hA =>
      rw [takenBack_eq]
      obtain ⟨processes, current, heq, -, -⟩ := moveNode_eq
        ((s.setMutex index { s.res.mutexes index with
          mutexState := .available
          mutexOwner := nullProcessId
          lockCount := 0 }).modProc p fun x => { x with
            ownedMutexId := noMutexOwned
            currentPriority := (s.res.mutexes index).savedOwnerPriority }) node p true follow
      rw [heq]
      exact Or.inl (.same rfl rfl)
  | stop node hnode hother hA => exact Or.inl (stopped_shrinks s _)
  | schedule hctl hmode =>
      obtain ⟨proc, current, heq, -, -⟩ := processSchedule_eq s
      rw [heq]
      exact Or.inl (.same rfl rfl)
  | release hctl =>
      rw [forEachProcess_eq]
      exact Or.inl (.same rfl rfl)
  | timeOuts hctl =>
      rw [forEachProcess_eq]
      exact Or.inl (.same rfl rfl)
  | freshLists k i hmode => exact Or.inl (freshLists_shrinks s k i)
  | toNormal point hrun hmode hA =>
      rw [forEachProcess_eq]
      exact Or.inl (.same rfl rfl)
  | _ => exact Or.inl (.same rfl rfl)

theorem Counted.move (h : Counted s) (hm : Move A s s') : Counted s' := by
  rcases hm.queues with hshrinks | ⟨p, q, -, hjoins, -⟩
  · exact hshrinks.2 h
  · exact hjoins.counted h

/-! ## Who is there -/

/-- Process `p` is linked, current, queued or the error handler. -/
def Live (s : Pcb) (p : Nat) : Prop :=
  (∃ n ∈ s.processes, n.data = p) ∨ (∃ c, s.processCurrent = some c ∧ c.data = p)
    ∨ (∃ q, p ∈ s.waitingProcesses q) ∨ s.errorHandlerProcess = some p

/-- Process `p` has just been created. -/
def Spawned (s s' : Pcb) (p : Nat) : Prop :=
  p = s.nextProc ∧ s'.nextProc = s.nextProc + 1 ∧ Running s ∧ s.status.operatingMode ≠ .normal

theorem Live.of_calls {p : Nat} (hcalls : Calls s p) : Live s p := Or.inr (Or.inl hcalls.2)

theorem live_moveNode {node : Node} {p : Nat} {front follow : Bool} (hp : Live s p) {p' : Nat}
    (hp' : Live (s.moveNode node p front follow) p') : Live s p' := by
  obtain ⟨processes, current, heq, hprocesses, hcurrent⟩ := moveNode_eq s node p front follow
  rw [heq] at hp'
  rcases hp' with ⟨n, hn, rfl⟩ | ⟨c, hc, rfl⟩ | hqueued | hhandler
  · rcases hprocesses n hn with hd | hin
    · rw [hd]
      exact hp
    · exact Or.inl ⟨n, hin, rfl⟩
  · rcases hcurrent c hc with hd | hcur
    · rw [hd]
      exact hp
    · exact Or.inr (Or.inl ⟨c, hcur, rfl⟩)
  · exact Or.inr (Or.inr (Or.inl hqueued))
  · exact Or.inr (Or.inr (Or.inr hhandler))

theorem Movable.live {node : Node} {p : Nat} {follow : Bool} (h : Movable s node p follow) :
    Live s p := by
  rcases h.linked with hin | hcur
  · exact Or.inl ⟨node, hin, h.data⟩
  · exact Or.inr (Or.inl ⟨node, hcur, h.data⟩)

/-- The same nodes and the same or shorter lists. -/
theorem Live.of_same {p : Nat} (hp : Live s' p) (hprocesses : s'.processes = s.processes)
    (hcurrent : s'.processCurrent = s.processCurrent)
    (hhandler : s'.errorHandlerProcess = s.errorHandlerProcess)
    (hlists : ∀ q, (s'.waitingProcesses q).Sublist (s.waitingProcesses q)) : Live s p := by
  rcases hp with hlinked | hcur | ⟨q, hq⟩ | heh
  · exact Or.inl (hprocesses ▸ hlinked)
  · exact Or.inr (Or.inl (hcurrent ▸ hcur))
  · exact Or.inr (Or.inr (Or.inl ⟨q, (hlists q).subset hq⟩))
  · exact Or.inr (Or.inr (Or.inr (hhandler ▸ heh)))

/-- Nobody appears but a process just created. -/
theorem Move.live (hm : Move A s s') {p : Nat} (hp : Live s' p) : Live s p ∨ Spawned s s' p := by
  have hlists : ∀ {t : Pcb}, t.waitingProcesses = s.waitingProcesses →
      ∀ q, (t.waitingProcesses q).Sublist (s.waitingProcesses q) := fun h q => by rw [h]
  cases hm with
  | frame hf =>
      exact Or.inl (hp.of_same hf.processes hf.processCurrent hf.errorHandlerProcess
        (hlists hf.waitingProcesses))
  | moveNode node p' front follow hmovable => exact Or.inl (live_moveNode hmovable.live hp)
  | block p' q linked discipline timer k hcalls hkind hmutex hk hA =>
      have hjoins := blocked_joins s p' q linked discipline timer k
      rw [blocked_eq] at hp hjoins
      rcases hp with hlinked | hcur | ⟨q', hq'⟩ | heh
      · exact Or.inl (Or.inl hlinked)
      · exact Or.inl (Or.inr (Or.inl hcur))
      · rcases hjoins.mem hq' with hin | ⟨rfl, -⟩
        · exact Or.inl (Or.inr (Or.inr (Or.inl ⟨q', hin⟩)))
        · exact Or.inl (.of_calls hcalls)
      · exact Or.inl (Or.inr (Or.inr (Or.inr heh)))
  | blockOnErrors p' error k hcalls hk hA =>
      have hjoins := blockedOnErrors_joins s p' error k
      rw [blockedOnErrors_eq] at hp hjoins
      rcases hp with hlinked | hcur | ⟨q', hq'⟩ | heh
      · exact Or.inl (Or.inl hlinked)
      · exact Or.inl (Or.inr (Or.inl hcur))
      · rcases hjoins.mem hq' with hin | ⟨rfl, -⟩
        · exact Or.inl (Or.inr (Or.inr (Or.inl ⟨q', hin⟩)))
        · exact Or.inl (.of_calls hcalls)
      · exact Or.inl (Or.inr (Or.inr (Or.inr heh)))
  | wake q cancel p' hwake hq =>
      obtain ⟨rest, -, heq⟩ := wakeFirst_eq_some hwake
      have hshrinks := (wakeFirst_shrinks hwake).1
      refine Or.inl (hp.of_same ?_ ?_ ?_ hshrinks)
      all_goals
        rw [heq]
        rfl
  | handOver index mutexId hhand hidx hstate =>
      rcases handMutexOver_eq_some hhand with ⟨-, rfl⟩ | ⟨woken, t, node, hwake, -, rfl⟩
      · exact Or.inl hp
      · obtain ⟨rest, hlist, heq⟩ := wakeFirst_eq_some hwake
        have hwoken : Live s woken :=
          Or.inr (Or.inr (Or.inl ⟨.mutex index, by rw [hlist]; exact List.mem_cons_self⟩))
        have hlive : ∀ {p' : Nat}, Live (t.giveMutex index woken mutexId) p' → Live s p' := by
          intro p' hp'
          refine hp'.of_same ?_ ?_ ?_ (wakeFirst_shrinks hwake).1
          all_goals
            unfold giveMutex
            rw [heq]
            rfl
        rcases hp with ⟨n, hn, rfl⟩ | hcur | hqueued | heh
        · rcases List.mem_cons.mp hn with rfl | hin
          · exact Or.inl hwoken
          · exact Or.inl (hlive (Or.inl ⟨n, List.mem_of_mem_erase hin, rfl⟩))
        · exact Or.inl (hlive (Or.inr (Or.inl hcur)))
        · exact Or.inl (hlive (Or.inr (Or.inr (Or.inl hqueued))))
        · exact Or.inl (hlive (Or.inr (Or.inr (Or.inr heh))))
  | acquire index p' node mutexId hcalls hidx hnode hdata hstate hfree =>
      refine Or.inl (live_moveNode (s := s.giveMutex index p' mutexId) ?_ hp)
      exact Live.of_calls hcalls
  | takeBack index p' node follow mutexId hrun hidx hown hmovable hA =>
      rw [takenBack_eq] at hp
      have hbefore := live_moveNode (by exact hmovable.live) hp
      exact Or.inl hbefore
  | stop node hnode hother hA =>
      obtain ⟨w, l, c, heq⟩ := stopped_eq s node.data
      have hshrinks := (stopped_shrinks s node.data).1
      refine Or.inl (hp.of_same ?_ ?_ ?_ hshrinks)
      all_goals rw [heq]
  | schedule hctl hmode =>
      obtain ⟨proc, current, heq, -, hcurrent⟩ := processSchedule_eq s
      rw [heq] at hp
      rcases hp with hlinked | ⟨c, hc, rfl⟩ | hqueued | heh
      · exact Or.inl (Or.inl hlinked)
      · exact Or.inl (Or.inl ⟨c, hcurrent c hc, rfl⟩)
      · exact Or.inl (Or.inr (Or.inr (Or.inl hqueued)))
      · exact Or.inl (Or.inr (Or.inr (Or.inr heh)))
  | release hctl =>
      rw [forEachProcess_eq] at hp
      exact Or.inl hp
  | timeOuts hctl =>
      rw [forEachProcess_eq] at hp
      exact Or.inl hp
  | spawn y node isErrorHandler hrun hmode hnode hfirst hy hA =>
      rcases hp with ⟨n, hn, rfl⟩ | hcur | hqueued | heh
      · rcases List.mem_append.mp hn with hin | hin
        · exact Or.inl (Or.inl ⟨n, hin, rfl⟩)
        · rw [List.mem_singleton.mp hin, hnode]
          exact Or.inr ⟨rfl, rfl, hrun, hmode⟩
      · exact Or.inl (Or.inr (Or.inl hcur))
      · exact Or.inl (Or.inr (Or.inr (Or.inl hqueued)))
      · unfold spawned at heh
        dsimp only at heh
        split at heh
        · cases heh
          exact Or.inr ⟨rfl, rfl, hrun, hmode⟩
        · exact Or.inl (Or.inr (Or.inr (Or.inr heh)))
  | freshLists k i hmode =>
      obtain ⟨lists, counts, heq⟩ := freshLists_eq s (listsOf k i)
      have hshrinks := (freshLists_shrinks s k i).1
      refine Or.inl (hp.of_same ?_ ?_ ?_ hshrinks)
      all_goals rw [heq]
  | toIdle hA =>
      rcases hp with hlinked | ⟨c, hc, -⟩ | hqueued | heh
      · exact Or.inl (Or.inl hlinked)
      · cases hc
      · exact Or.inl (Or.inr (Or.inr (Or.inl hqueued)))
      · exact Or.inl (Or.inr (Or.inr (Or.inr heh)))
  | toStart mode hmode hA =>
      rcases hp with ⟨n, hn, -⟩ | ⟨c, hc, -⟩ | hqueued | heh
      · cases hn
      · cases hc
      · exact Or.inl (Or.inr (Or.inr (Or.inl hqueued)))
      · cases heh
  | toNormal point hrun hmode hA =>
      rw [forEachProcess_eq] at hp
      exact Or.inl hp
  | _ => exact Or.inl hp

/-- A linked process was linked or current before, has just been created, or has just left the list of a
    mutex it was given. -/
theorem Move.linked (hm : Move A s s') {p : Nat} (hp : ∃ n ∈ s'.processes, n.data = p) :
    (∃ n ∈ s.processes, n.data = p) ∨ (∃ c, s.processCurrent = some c ∧ c.data = p) ∨ p = s.nextProc
      ∨ ∃ i, s.waitingProcesses (.mutex i) = p :: s'.waitingProcesses (.mutex i) := by
  have hmoved : ∀ {node : Node} {p' : Nat} {t : Pcb} {front follow : Bool},
      ((∃ n ∈ s.processes, n.data = p') ∨ ∃ c, s.processCurrent = some c ∧ c.data = p') →
        t.processes = s.processes → (∃ n ∈ (t.moveNode node p' front follow).processes, n.data = p) →
          (∃ n ∈ s.processes, n.data = p) ∨ ∃ c, s.processCurrent = some c ∧ c.data = p := by
    intro node p' t front follow hp' ht hn
    obtain ⟨n, hn, rfl⟩ := hn
    obtain ⟨processes, current, heq, hprocesses, -⟩ := moveNode_eq t node p' front follow
    rw [heq] at hn
    rcases hprocesses n hn with hd | hin
    · rw [hd]
      exact hp'
    · exact Or.inl ⟨n, ht ▸ hin, rfl⟩
  have hmovable : ∀ {node : Node} {p' : Nat} {follow : Bool}, Movable s node p' follow →
      (∃ n ∈ s.processes, n.data = p') ∨ ∃ c, s.processCurrent = some c ∧ c.data = p' := fun h =>
    h.linked.imp (fun hin => ⟨_, hin, h.data⟩) fun hcur => ⟨_, hcur, h.data⟩
  cases hm with
  | frame hf => exact Or.inl (hf.processes ▸ hp)
  | moveNode node p' front follow h => exact (hmoved (hmovable h) rfl hp).imp id Or.inl
  | block p' q linked discipline timer k hcalls hkind hmutex hk hA =>
      rw [blocked_eq] at hp
      exact Or.inl hp
  | wake q cancel p' hwake hq =>
      obtain ⟨rest, -, rfl⟩ := wakeFirst_eq_some hwake
      exact Or.inl hp
  | handOver index mutexId hhand hidx hstate =>
      rcases handMutexOver_eq_some hhand with ⟨-, rfl⟩ | ⟨woken, t, node, hwake, -, rfl⟩
      · exact Or.inl hp
      · obtain ⟨rest, hlist, rfl⟩ := wakeFirst_eq_some hwake
        obtain ⟨n, hn, rfl⟩ := hp
        rcases List.mem_cons.mp hn with rfl | hin
        · -- the new owner
          refine Or.inr (Or.inr (Or.inr ⟨index, ?_⟩))
          rw [hlist]
          show woken :: rest
            = woken :: Function.update s.waitingProcesses (.mutex index) rest (.mutex index)
          rw [Function.update_self]
        · exact Or.inl ⟨n, List.mem_of_mem_erase hin, rfl⟩
  | acquire index p' node mutexId hcalls hidx hnode hdata hstate hfree =>
      exact (hmoved (t := s.giveMutex index p' mutexId) (Or.inr ⟨node, hnode, hdata⟩) rfl hp).imp id Or.inl
  | takeBack index p' node follow mutexId hrun hidx hown h hA =>
      rw [takenBack_eq] at hp
      exact (hmoved (hmovable h) (by rfl) hp).imp id Or.inl
  | stop node hnode hother hA =>
      obtain ⟨w, l, c, heq⟩ := stopped_eq s node.data
      rw [heq] at hp
      exact Or.inl hp
  | schedule hctl hmode =>
      obtain ⟨proc, current, heq, -, -⟩ := processSchedule_eq s
      rw [heq] at hp
      exact Or.inl hp
  | release hctl =>
      rw [forEachProcess_eq] at hp
      exact Or.inl hp
  | timeOuts hctl =>
      rw [forEachProcess_eq] at hp
      exact Or.inl hp
  | spawn y node isErrorHandler hrun hmode hnode hfirst hy hA =>
      obtain ⟨n, hn, rfl⟩ := hp
      rcases List.mem_append.mp hn with hin | hin
      · exact Or.inl ⟨n, hin, rfl⟩
      · rw [List.mem_singleton.mp hin]
        exact Or.inr (Or.inr (Or.inl hnode))
  | freshLists k i hmode =>
      obtain ⟨lists, counts, heq⟩ := freshLists_eq s (listsOf k i)
      rw [heq] at hp
      exact Or.inl hp
  | toStart mode hmode hA =>
      obtain ⟨n, hn, -⟩ := hp
      cases hn
  | toNormal point hrun hmode hA =>
      rw [forEachProcess_eq] at hp
      exact Or.inl hp
  | _ => exact Or.inl hp

/-- The cells of live processes have been handed out. -/
def Allocated (s : Pcb) : Prop := ∀ p, Live s p → p < s.nextProc

/-- The operating mode, the error handler and the cells handed out stay. -/
structure SamePartition (s s' : Pcb) : Prop where
  operatingMode : s'.status.operatingMode = s.status.operatingMode
  errorHandlerProcess : s'.errorHandlerProcess = s.errorHandlerProcess
  nextProc : s'.nextProc = s.nextProc

theorem samePartition_moveNode (s : Pcb) (node : Node) (p : Nat) (front follow : Bool) :
    SamePartition s (s.moveNode node p front follow) := by
  obtain ⟨processes, current, heq, -, -⟩ := moveNode_eq s node p front follow
  rw [heq]
  exact ⟨rfl, rfl, rfl⟩

/-- Only the creation of a process and a change of mode change them. -/
theorem Move.partition (hm : Move A s s') : SamePartition s s'
    ∨ (∃ y node isErrorHandler, s' = s.spawned y node isErrorHandler
      ∧ SpawnedAs (s.proc s.nextProc) y ∧ A.create y.attributes.period ∧ s.status.operatingMode ≠ .normal)
    ∨ (A.mode s'.status.operatingMode ∧ s'.nextProc = s.nextProc
      ∧ (∀ p, s'.errorHandlerProcess = some p → s.errorHandlerProcess = some p)
      ∧ (Starting s' → s'.processes = [])) := by
  cases hm with
  | frame hf => exact Or.inl ⟨hf.operatingMode, hf.errorHandlerProcess, hf.nextProc⟩
  | moveNode node p front follow hmovable => exact Or.inl (samePartition_moveNode s node p front follow)
  | block p q linked discipline timer k hcalls hkind hmutex hk hA =>
      rw [blocked_eq]
      exact Or.inl ⟨rfl, rfl, rfl⟩
  | wake q cancel p hwake hq =>
      obtain ⟨rest, -, rfl⟩ := wakeFirst_eq_some hwake
      exact Or.inl ⟨rfl, rfl, rfl⟩
  | handOver index mutexId hhand hidx hstate =>
      rcases handMutexOver_eq_some hhand with ⟨-, rfl⟩ | ⟨woken, t, node, hwake, -, rfl⟩
      · exact Or.inl ⟨rfl, rfl, rfl⟩
      · obtain ⟨rest, -, rfl⟩ := wakeFirst_eq_some hwake
        exact Or.inl ⟨rfl, rfl, rfl⟩
  | acquire index p node mutexId hcalls hidx hnode hdata hstate hfree =>
      obtain ⟨hmode, hhandler, hnext⟩ :=
        samePartition_moveNode (s.giveMutex index p mutexId) node p true true
      exact Or.inl ⟨hmode, hhandler, hnext⟩
  | takeBack index p node follow mutexId hrun hidx hown hmovable hA =>
      rw [takenBack_eq]
      obtain ⟨hmode, hhandler, hnext⟩ := samePartition_moveNode
        ((s.setMutex index { s.res.mutexes index with
          mutexState := .available
          mutexOwner := nullProcessId
          lockCount := 0 }).modProc p fun x => { x with
            ownedMutexId := noMutexOwned
            currentPriority := (s.res.mutexes index).savedOwnerPriority }) node p true follow
      exact Or.inl ⟨hmode, hhandler, hnext⟩
  | stop node hnode hother hA =>
      obtain ⟨w, l, c, heq⟩ := stopped_eq s node.data
      rw [heq]
      exact Or.inl ⟨rfl, rfl, rfl⟩
  | schedule hctl hmode =>
      obtain ⟨proc, current, heq, -, -⟩ := processSchedule_eq s
      rw [heq]
      exact Or.inl ⟨rfl, rfl, rfl⟩
  | release hctl =>
      rw [forEachProcess_eq]
      exact Or.inl ⟨rfl, rfl, rfl⟩
  | timeOuts hctl =>
      rw [forEachProcess_eq]
      exact Or.inl ⟨rfl, rfl, rfl⟩
  | spawn y node isErrorHandler hrun hmode hnode hfirst hy hA =>
      exact Or.inr (Or.inl ⟨y, node, isErrorHandler, rfl, hy, hA, hmode⟩)
  | freshLists k i hmode =>
      obtain ⟨lists, counts, heq⟩ := freshLists_eq s (listsOf k i)
      rw [heq]
      exact Or.inl ⟨rfl, rfl, rfl⟩
  | toIdle hA =>
      refine Or.inr (Or.inr ⟨hA, rfl, fun _ hp => hp, fun hs => ?_⟩)
      rcases hs with hc | hw <;> contradiction
  | toStart mode hmode hA =>
      exact Or.inr (Or.inr ⟨hA, rfl, fun _ hp => (nomatch hp), fun _ => rfl⟩)
  | toNormal point hrun hmode hA =>
      rw [forEachProcess_eq]
      refine Or.inr (Or.inr ⟨hA, rfl, fun _ hp => hp, fun hs => ?_⟩)
      rcases hs with hc | hw <;> contradiction
  | _ => exact Or.inl ⟨rfl, rfl, rfl⟩

theorem Move.nextProc_le (hm : Move A s s') : s.nextProc ≤ s'.nextProc := by
  rcases hm.partition with hsame | ⟨y, node, isErrorHandler, rfl, -, -⟩ | ⟨-, hnext, -⟩
  · exact hsame.nextProc.ge
  · exact Nat.le_succ _
  · exact hnext.ge

/-- A cell handed out was so before, or holds a new process. -/
theorem Move.allocated (hm : Move A s s') {p : Nat} (hp : p < s'.nextProc) :
    p < s.nextProc ∨ SpawnedAs (s.proc p) (s'.proc p) := by
  rcases hm.partition with hsame | ⟨y, node, isErrorHandler, rfl, hy, -⟩ | ⟨-, hnext, -⟩
  · exact Or.inl (hsame.nextProc ▸ hp)
  · rcases Nat.lt_succ_iff_lt_or_eq.mp hp with hlt | rfl
    · exact Or.inl hlt
    · rw [show (s.spawned y node isErrorHandler).proc s.nextProc = y from Function.update_self _ _ _]
      exact Or.inr hy
  · exact Or.inl (hnext ▸ hp)

/-- The error handler is the one there was, or a process just created. -/
theorem Move.handler (hm : Move A s s') {p : Nat} (hp : s'.errorHandlerProcess = some p) :
    s.errorHandlerProcess = some p ∨ p = s.nextProc := by
  rcases hm.partition with hsame | ⟨y, node, isErrorHandler, rfl, -, -⟩ | ⟨-, -, hhandler, -⟩
  · exact Or.inl (hsame.errorHandlerProcess ▸ hp)
  · unfold spawned at hp
    dsimp only at hp
    split at hp
    · exact Or.inr (Option.some.inj hp).symm
    · exact Or.inl hp
  · exact Or.inl (hhandler p hp)

/-- A partition that starts did so before, or has freed its processes. -/
theorem Move.starting (hm : Move A s s') (hs : Starting s') : Starting s ∨ s'.processes = [] := by
  rcases hm.partition with hsame | ⟨y, node, isErrorHandler, rfl, -, -⟩ | ⟨-, -, -, hprocesses⟩
  · rw [Starting, hsame.operatingMode] at hs
    exact Or.inl hs
  · exact Or.inl hs
  · exact Or.inr (hprocesses hs)

theorem Allocated.move (h : Allocated s) (hm : Move A s s') : Allocated s' := by
  intro p hp
  rcases hm.live hp with hlive | ⟨rfl, hnext, -, -⟩
  · exact (h p hlive).trans_le hm.nextProc_le
  · rw [hnext]
    exact Nat.lt_succ_self _

/-- The current process is the one there was, or runs. -/
theorem Move.current (hm : Move A s s') {c : Node} (hc : s'.processCurrent = some c) :
    (∃ c', s.processCurrent = some c' ∧ c'.data = c.data)
      ∨ (s'.proc c.data).processState = .running := by
  have hfollow : ∀ {t : Pcb} {node : Node} {p : Nat} {front follow : Bool},
      t.processCurrent = s.processCurrent → Movable s node p follow →
        (t.proc p).processState = (s.proc p).processState →
          (t.moveNode node p front follow).processCurrent = some c →
            (∃ c', s.processCurrent = some c' ∧ c'.data = c.data)
              ∨ ((t.moveNode node p front follow).proc c.data).processState = .running := by
    intro t node p front follow htc hmovable hstate hc
    obtain ⟨newNode, hdata, -, hcurrent⟩ := moveNode_fields t node p front follow
    rw [hcurrent] at hc
    rw [(moveNode_rest t node p front follow).2.1]
    cases follow with
    | false => exact Or.inl ⟨c, htc ▸ hc, rfl⟩
    | true =>
        cases hc
        rw [hdata]
        rcases hmovable.followed rfl with hr | hcur
        · exact Or.inr (hstate.trans hr)
        · exact Or.inl ⟨node, hcur, hmovable.data⟩
  cases hm with
  | frame hf => exact Or.inl ⟨c, hf.processCurrent ▸ hc, rfl⟩
  | moveNode node p front follow hmovable => exact hfollow rfl hmovable rfl hc
  | block p q linked discipline timer k hcalls hkind hmutex hk hA =>
      rw [blocked_eq] at hc
      exact Or.inl ⟨c, hc, rfl⟩
  | wake q cancel p hwake hq =>
      obtain ⟨rest, -, rfl⟩ := wakeFirst_eq_some hwake
      exact Or.inl ⟨c, hc, rfl⟩
  | handOver index mutexId hhand hidx hstate =>
      rcases handMutexOver_eq_some hhand with ⟨-, rfl⟩ | ⟨woken, t, node, hwake, -, rfl⟩
      · exact Or.inl ⟨c, hc, rfl⟩
      · obtain ⟨rest, -, rfl⟩ := wakeFirst_eq_some hwake
        exact Or.inl ⟨c, hc, rfl⟩
  | acquire index p node mutexId hcalls hidx hnode hdata hstate hfree =>
      obtain ⟨newNode, hnew, -, hcurrent⟩ :=
        moveNode_fields (s.giveMutex index p mutexId) node p true true
      rw [hcurrent, if_pos rfl] at hc
      cases hc
      exact Or.inl ⟨node, hnode, hdata.trans hnew.symm⟩
  | takeBack index p node follow mutexId hrun hidx hown hmovable hA =>
      rw [takenBack_eq] at hc ⊢
      refine hfollow (by rfl) hmovable ?_ hc
      rw [modProc_proc_self]
      rfl
  | stop node hnode hother hA =>
      obtain ⟨w, l, cs, heq⟩ := stopped_eq s node.data
      rw [heq] at hc
      exact Or.inl ⟨c, hc, rfl⟩
  | schedule hctl hmode => exact Or.inr (processSchedule_current hc).2
  | release hctl =>
      rw [forEachProcess_eq] at hc
      exact Or.inl ⟨c, hc, rfl⟩
  | timeOuts hctl =>
      rw [forEachProcess_eq] at hc
      exact Or.inl ⟨c, hc, rfl⟩
  | freshLists k i hmode =>
      obtain ⟨lists, counts, heq⟩ := freshLists_eq s (listsOf k i)
      rw [heq] at hc
      exact Or.inl ⟨c, hc, rfl⟩
  | toIdle hA => cases hc
  | toStart mode hmode hA => cases hc
  | toNormal point hrun hmode hA =>
      rw [forEachProcess_eq] at hc
      exact Or.inl ⟨c, hc, rfl⟩
  | _ => exact Or.inl ⟨c, hc, rfl⟩

/-- Control stays where it is, goes to the partition OS or is lost, or the partition OS dispatches. -/
theorem Move.control (hm : Move A s s') : s'.ctl = s.ctl ∨ s'.ctl = .partitionOs ∨ s'.ctl = .crashed
    ∨ (∃ node ∈ s.processes, s.processCurrent = some node ∧ (s.proc node.data).processState = .running)
    ∨ (Starting s ∧ s'.ctl = .mainProcess) := by
  cases hm with
  | frame hf => exact Or.inl hf.ctl
  | moveNode node p front follow hmovable => exact Or.inl (moveNode_rest s node p front follow).1
  | wake q cancel p hwake => exact Or.inl (wakeFirst_caller hwake).2
  | handOver index mutexId hhand => exact Or.inl (handMutexOver_caller hhand).2
  | acquire index p node => exact Or.inl (moveNode_rest (s.giveMutex index p _) node p true true).1
  | takeBack index p node follow =>
      rw [takenBack_eq]
      exact Or.inl (moveNode_rest _ node p true follow).1
  | stop node => exact Or.inl (stopped_caller s node.data).2
  | schedule hctl =>
      obtain ⟨proc, current, heq, -, -⟩ := processSchedule_eq s
      rw [heq]
      exact Or.inl rfl
  | release hctl =>
      rw [forEachProcess_eq]
      exact Or.inl rfl
  | timeOuts hctl =>
      rw [forEachProcess_eq]
      exact Or.inl rfl
  | freshLists k i =>
      obtain ⟨lists, counts, heq⟩ := freshLists_eq s (listsOf k i)
      rw [heq]
      exact Or.inl rfl
  | run node hnode hlinked hstate => exact Or.inr (Or.inr (Or.inr (Or.inl ⟨node, hlinked, hnode, hstate⟩)))
  | main hmode => exact Or.inr (Or.inr (Or.inr (Or.inr ⟨hmode, rfl⟩)))
  | crash => exact Or.inr (Or.inr (Or.inl rfl))
  | block | blockOnErrors | sleep | yield | stopSelf | toOs | toIdle | toStart | toNormal =>
      exact Or.inr (Or.inl rfl)
  | _ => exact Or.inl rfl

/-- Outside the partition OS the current process is only replaced by another. -/
theorem Move.current_isSome (hm : Move A s s') (hctl : s'.ctl = .process) (h : s.processCurrent.isSome) :
    s'.processCurrent.isSome := by
  have hfollow : ∀ (t : Pcb) (node : Node) (p : Nat) (front follow : Bool),
      t.processCurrent = s.processCurrent → (t.moveNode node p front follow).processCurrent.isSome := by
    intro t node p front follow ht
    obtain ⟨newNode, -, -, hcurrent⟩ := moveNode_fields t node p front follow
    rw [hcurrent]
    split
    · rfl
    · rw [ht]
      exact h
  cases hm with
  | frame hf => exact hf.processCurrent ▸ h
  | moveNode node p front follow hmovable => exact hfollow s node p front follow rfl
  | wake q cancel p hwake => exact (wakeFirst_caller hwake).1 ▸ h
  | handOver index mutexId hhand => exact (handMutexOver_caller hhand).1 ▸ h
  | acquire index p node mutexId => exact hfollow (s.giveMutex index p mutexId) node p true true rfl
  | takeBack index p node follow =>
      rw [takenBack_eq]
      exact hfollow _ node p true follow rfl
  | stop node => exact (stopped_caller s node.data).1 ▸ h
  | schedule hctl' =>
      obtain ⟨proc, current, heq, -, -⟩ := processSchedule_eq s
      rw [heq, hctl'] at hctl
      cases hctl
  | release hctl =>
      rw [forEachProcess_eq]
      exact h
  | timeOuts hctl =>
      rw [forEachProcess_eq]
      exact h
  | freshLists k i =>
      obtain ⟨lists, counts, heq⟩ := freshLists_eq s (listsOf k i)
      rw [heq]
      exact h
  | block | blockOnErrors | sleep | yield | stopSelf | toOs | toIdle | toStart | toNormal | crash => cases hctl
  | _ => exact h

/-- While the code of a process executes, there is a current process. -/
def HasCurrent (s : Pcb) : Prop := s.ctl = .process → s.processCurrent.isSome

theorem HasCurrent.move (h : HasCurrent s) (hm : Move A s s') : HasCurrent s' := by
  intro hctl
  rcases hm.control with hsame | hos | hcrashed | ⟨node, -, hnode, -⟩ | ⟨-, hmain⟩
  · exact hm.current_isSome hctl (h (hsame ▸ hctl))
  · rw [hctl] at hos
    cases hos
  · rw [hctl] at hcrashed
    cases hcrashed
  · refine hm.current_isSome hctl ?_
    rw [hnode]
    rfl
  · rw [hctl] at hmain
    cases hmain

/-- A process keeps its identifier. -/
theorem Move.processId (hm : Move A s s') (p : Nat) :
    (s'.proc p).processId = (s.proc p).processId
      ∨ p = s.nextProc ∧ Running s ∧ s.status.operatingMode ≠ .normal := by
  have hchange := hm.change p
  generalize s.proc p = x at hchange ⊢
  generalize s'.proc p = y at hchange ⊢
  cases hchange with
  | touch h => exact Or.inl h.processId
  | sleep k timer hcalls hf hA => exact Or.inl hf.processId
  | start delayed hlinked hstate hf hA => exact Or.inl hf.processId
  | schedule hctl h =>
      obtain ⟨st, rfl, -⟩ := h
      exact Or.inl rfl
  | release hctl hlinked =>
      unfold checkAndReleasePeriodicWaitingProcesses
      split_ifs <;> exact Or.inl rfl
  | timeOuts hctl hlinked =>
      unfold checkTimeouts
      split_ifs <;> exact Or.inl rfl
  | spawn hp hrun hmode hy hA => exact Or.inr ⟨hp, hrun, hmode⟩
  | toNormal hrun hmode hlinked h hA =>
      obtain ⟨release, deadline, rfl⟩ := h
      exact Or.inl rfl
  | _ => exact Or.inl rfl

/-! ## Lists nobody joins -/

/-- A list that nobody may join only shrinks. -/
theorem sublist_of_moves {q : WaitList} (hm : Moves (onlyBlocks fun _ _ q' _ => q' ≠ q) s s') :
    (s'.waitingProcesses q).Sublist (s.waitingProcesses q) := by
  induction hm with
  | refl => exact List.Sublist.refl _
  | tail _ hm ih =>
      rcases hm.queues with hshrinks | ⟨p, q', -, ⟨l, -, hlists, -⟩, -, timer, hne⟩
      · exact (hshrinks.1 q).trans ih
      · rw [hlists, Function.update_of_ne (Ne.symm hne)]
        exact ih

/-- A process resumes in code that ends a wait in a list where it has blocked there before. -/
theorem waitsIn_of_moves {B : Pcb → Nat → WaitList → Option Int → Prop} (hm : Moves (onlyBlocks B) s s') {p : Nat}
    {k : Context} (hk : (s'.proc p).context = k) (hplain : resumesPlainly k = false) (hself : k ≠ .suspendSelf) :
    (s.proc p).context = k ∨ ∃ t q timer, B t p q timer ∧ ResumesFrom q k := by
  induction hm with
  | refl => exact Or.inl hk
  | tail _ hm ih =>
      rcases hm.waitsIn hk hplain hself with hbefore | ⟨q, timer, hB, hfrom⟩
      · exact ih hbefore
      · exact Or.inr ⟨_, q, timer, hB, hfrom⟩

/-! ## Restarts -/

/-- What a restart leaves. -/
theorem step_restart {mode : Int} (hrestarts : s.Restarts mode)
    (hstep : s.step (.call (.setPartitionMode mode)) = some s') : s'.nextProc = s.nextProc ∧ s'.processes = []
      ∧ s'.processCurrent = none ∧ s'.errorHandlerProcess = none ∧ s'.waitingProcesses = s.waitingProcesses := by
  obtain ⟨-, rfl⟩ := call_eq_some hstep
  rw [show s.exec (.setPartitionMode mode) = s.setPartitionMode mode from rfl]
  unfold setPartitionMode
  rcases hrestarts with hmode | ⟨hmode, hwarm⟩
  · rw [hmode]
    dsimp only
    rw [if_neg fun h => OperatingMode.noConfusion h.1, if_neg fun h => OperatingMode.noConfusion h.1]
    exact ⟨rfl, rfl, rfl, rfl, rfl⟩
  · rw [hmode]
    dsimp only
    rw [if_neg fun h => OperatingMode.noConfusion h.1, if_neg fun h => hwarm h.2]
    exact ⟨rfl, rfl, rfl, rfl, rfl⟩

/-- If a restart frees no process that waits, nothing ever points to a process from before it: the records it frees
    may be used again. -/
theorem live_since_restart {mode : Int} {es : List Action} {t : Pcb} (hsound : Sound s)
    (hrestarts : s.Restarts mode) (hfrees : s.FreesNoWaiter (.call (.setPartitionMode mode)))
    (hstep : s.step (.call (.setPartitionMode mode)) = some s') (hrun : Transition.run step s' es = some t)
    {p : Nat} (hp : Live t p) : s.nextProc ≤ p := by
  let I : Pcb → Prop := fun u => s.nextProc ≤ u.nextProc ∧ ∀ p, Live u p → s.nextProc ≤ p
  have hmove : ∀ u u', Sound u → I u → Move .all u u' → I u' := by
    rintro u u' - ⟨hnext, hlive⟩ hm
    refine ⟨hnext.trans hm.nextProc_le, fun p hp => ?_⟩
    rcases hm.live hp with hwas | ⟨rfl, -⟩
    · exact hlive p hwas
    · exact hnext
  have hstart : I s' := by
    obtain ⟨hnext, hprocesses, hcurrent, hhandler, hlists⟩ := step_restart hrestarts hstep
    refine ⟨hnext.ge, fun p hp => ?_⟩
    rcases hp with ⟨n, hn, -⟩ | ⟨c, hc, -⟩ | ⟨q, hq⟩ | heh
    · rw [hprocesses] at hn
      cases hn
    · rw [hcurrent] at hc
      cases hc
    · rw [hlists, hfrees hrestarts q] at hq
      cases hq
    · rw [hhandler] at heh
      cases heh
  exact (Transition.run_invariant (I := fun u => Sound u ∧ I u) hrun
    (fun u e u' h hstep => Moves.keep hmove (step_moves h.1.running (permits_all u e) hstep) h.1 h.2)
    ⟨hsound.step hstep, hstart⟩).2.2 p hp

/-! ## At the start -/

/-- The facts of this module that hold whatever a partition does. -/
structure Queues (s : Pcb) : Prop where
  counted : Counted s
  allocated : Allocated s

theorem Queues.move (h : Queues s) (hm : Move A s s') : Queues s' :=
  ⟨h.counted.move hm, h.allocated.move hm⟩

theorem queues_partitionInit (period identifier : Int) (conf : PartitionConf) (maxErrors : Nat)
    (krnl : Krnl) (memory : Nat → Process) (lastTick : Nat) :
    Queues (partitionInit period identifier conf maxErrors krnl memory lastTick) := by
  refine ⟨fun k i => ?_, fun p hp => ?_⟩
  · cases k <;> rfl
  · rcases hp with ⟨n, hn, -⟩ | ⟨c, hc, -⟩ | ⟨q, hq⟩ | heh
    · cases hn
    · cases hc
    · cases hq
    · cases heh

/-- What holds at the start and is kept by every move holds after every run. -/
theorem kept_of_run {I : Pcb → Prop} (period identifier : Int) (conf : PartitionConf) (maxErrors : Nat)
    (krnl : Krnl) (memory : Nat → Process) (lastTick : Nat) {es : List Action}
    (hrun : Transition.run step
      (partitionInit period identifier conf maxErrors krnl memory lastTick).startPartitionOs es
      = some s) (hmove : ∀ s s', Sound s → I s → Move .all s s' → I s')
    (hinit : I (partitionInit period identifier conf maxErrors krnl memory lastTick)) : Sound s ∧ I s := by
  have hstart := Moves.keep (A := .all) hmove (startPartitionOs_moves _)
    (sound_partitionInit period identifier conf maxErrors krnl memory lastTick) hinit
  refine Transition.run_invariant (I := fun s => Sound s ∧ I s) hrun ?_ hstart
  intro s e s' h hstep
  exact Moves.keep hmove (step_moves h.1.running (permits_all s e) hstep) h.1 h.2

/-- After every run the partition is sound and its queues are counted. -/
theorem queues_of_run (period identifier : Int) (conf : PartitionConf) (maxErrors : Nat) (krnl : Krnl)
    (memory : Nat → Process) (lastTick : Nat) {es : List Action}
    (hrun : Transition.run step
      (partitionInit period identifier conf maxErrors krnl memory lastTick).startPartitionOs es
      = some s) : Sound s ∧ Queues s :=
  kept_of_run period identifier conf maxErrors krnl memory lastTick hrun (fun _ _ _ h hm => h.move hm)
    (queues_partitionInit period identifier conf maxErrors krnl memory lastTick)

theorem hasCurrent_of_run (period identifier : Int) (conf : PartitionConf) (maxErrors : Nat) (krnl : Krnl)
    (memory : Nat → Process) (lastTick : Nat) {es : List Action}
    (hrun : Transition.run step
      (partitionInit period identifier conf maxErrors krnl memory lastTick).startPartitionOs es
      = some s) : HasCurrent s :=
  (kept_of_run period identifier conf maxErrors krnl memory lastTick hrun (fun _ _ _ h hm => h.move hm)
    fun hctl => Control.noConfusion hctl).2

/-- The partition OS creates its mutex, and no process. -/
theorem startPartitionOs_fresh (period identifier : Int) (conf : PartitionConf) (maxErrors : Nat) (krnl : Krnl)
    (memory : Nat → Process) (lastTick : Nat) {s : Pcb}
    (hs : s = (partitionInit period identifier conf maxErrors krnl memory lastTick).startPartitionOs) :
    s.processes = [] ∧ s.nextProc = 0 ∧ s.krnl = krnl ∧ s.proc = fun p => { memory p with context := .entry } := by
  rw [hs]
  unfold startPartitionOs createMutex
  split_ifs
  all_goals exact ⟨rfl, rfl, rfl, rfl⟩

theorem nextProc_startPartitionOs (period identifier : Int) (conf : PartitionConf) (maxErrors : Nat) (krnl : Krnl)
    (memory : Nat → Process) (lastTick : Nat) :
    (partitionInit period identifier conf maxErrors krnl memory lastTick).startPartitionOs.nextProc = 0 :=
  (startPartitionOs_fresh period identifier conf maxErrors krnl memory lastTick rfl).2.1

end Pcb

end UcxArinc
