import UcxArinc.Proofs.WaitingQueues

set_option autoImplicit false

/-! # Owners

The owner of a mutex is kept in its record and in the record of a process. `Owners` says that the two
agree; every move keeps it, as long as nobody who waits for a mutex owns one. -/

namespace UcxArinc

namespace Pcb

variable {A : Permit} {s s' : Pcb}

/-! ## Free and owned -/

/-- Mutex `i` is free in its record, and no process owns it. -/
structure FreeMutex (s : Pcb) (i : Nat) : Prop where
  state : (s.res.mutexes i).mutexState = .available
  lockCount : (s.res.mutexes i).lockCount = 0
  nobody : ∀ p, p < s.nextProc → (s.proc p).ownedMutexId ≠ i + 1

/-- Mutex `i` is owned by exactly one process, the one its record names. -/
structure OwnedMutex (s : Pcb) (i : Nat) : Prop where
  state : (s.res.mutexes i).mutexState = .owned
  lockCount : 1 ≤ (s.res.mutexes i).lockCount ∧ (s.res.mutexes i).lockCount ≤ maxLockLevel
  owner : ∃ p, p < s.nextProc ∧ (s.proc p).ownedMutexId = i + 1
    ∧ (s.res.mutexes i).mutexOwner = (s.proc p).processId
    ∧ ∀ p', p' < s.nextProc → (s.proc p').ownedMutexId = i + 1 → p' = p

structure Owners (s : Pcb) : Prop where
  ids : ∀ i, i < s.res.mutexCount → (s.res.mutexes i).mutexId = i + 1
  owned : ∀ p, p < s.nextProc → (s.proc p).ownedMutexId = noMutexOwned
    ∨ ∃ i : Nat, i < s.res.mutexCount ∧ (s.proc p).ownedMutexId = i + 1
  mutex : ∀ i, i < s.res.mutexCount → FreeMutex s i ∨ OwnedMutex s i

/-- Mutex `i` looks the same, and so do its owners. -/
theorem owner_congr {i : Nat} (h : FreeMutex s i ∨ OwnedMutex s i)
    (hmutex : SameMutex (s.res.mutexes i) (s'.res.mutexes i)) (hnext : s'.nextProc = s.nextProc)
    (hproc : ∀ p, p < s.nextProc → ((s'.proc p).ownedMutexId = i + 1 ↔ (s.proc p).ownedMutexId = i + 1)
      ∧ (s'.proc p).processId = (s.proc p).processId) : FreeMutex s' i ∨ OwnedMutex s' i := by
  obtain ⟨-, hstate, howner, hlock⟩ := hmutex
  rcases h with ⟨hfree, hzero, hnobody⟩ | ⟨howned, hlocked, p, hp, hown, hname, huniq⟩
  · refine Or.inl ⟨by rw [hstate, hfree], by rw [hlock, hzero], fun p hp heq => ?_⟩
    rw [hnext] at hp
    exact hnobody p hp ((hproc p hp).1.mp heq)
  · refine Or.inr ⟨by rw [hstate, howned], by rw [hlock]; exact hlocked, p, hnext ▸ hp,
      (hproc p hp).1.mpr hown, ?_, fun p' hp' heq => ?_⟩
    · rw [howner, hname, (hproc p hp).2]
    · rw [hnext] at hp'
      exact huniq p' hp' ((hproc p' hp').1.mp heq)

/-- The same mutexes, and the same fields in the records. -/
theorem Owners.congr (h : Owners s) (hcount : s'.res.mutexCount = s.res.mutexCount)
    (hmutexes : ∀ i, SameMutex (s.res.mutexes i) (s'.res.mutexes i)) (hnext : s'.nextProc = s.nextProc)
    (hproc : ∀ p, p < s.nextProc → (s'.proc p).ownedMutexId = (s.proc p).ownedMutexId
      ∧ (s'.proc p).processId = (s.proc p).processId) : Owners s' := by
  refine ⟨fun i hi => ?_, fun p hp => ?_, fun i hi => ?_⟩
  · rw [(hmutexes i).mutexId]
    exact h.ids i (hcount ▸ hi)
  · rw [hnext] at hp
    rw [hcount, (hproc p hp).1]
    exact h.owned p hp
  · exact owner_congr (h.mutex i (hcount ▸ hi)) (hmutexes i) hnext fun p hp =>
      ⟨by rw [(hproc p hp).1], (hproc p hp).2⟩

/-- A record that keeps its identifier and what it owns. -/
theorem Owners.modProc (h : Owners s) {p : Nat} {f : Process → Process}
    (howned : (f (s.proc p)).ownedMutexId = (s.proc p).ownedMutexId)
    (hid : (f (s.proc p)).processId = (s.proc p).processId) : Owners (s.modProc p f) := by
  refine h.congr rfl (fun _ => .refl _) rfl fun p' _ => ?_
  by_cases heq : p' = p
  · rw [heq, modProc_proc_self]
    exact ⟨howned, hid⟩
  · rw [modProc_proc_of_ne heq]
    exact ⟨rfl, rfl⟩

/-- The owner a mutex record names owns it. -/
theorem Owners.ownedMutex (h : Owners s) {p i : Nat} (hp : p < s.nextProc) (hi : i < s.res.mutexCount)
    (hown : (s.proc p).ownedMutexId = i + 1) : OwnedMutex s i := by
  rcases h.mutex i hi with hfree | howned
  · exact absurd hown (hfree.nobody p hp)
  · exact howned

/-- A new lock count in the record of an owned mutex. -/
theorem Owners.relock (h : Owners s) {i : Nat} {count : Int} (hi : i < s.res.mutexCount)
    (howned : OwnedMutex s i) (hcount : 1 ≤ count ∧ count ≤ maxLockLevel) :
    Owners (s.setMutex i { s.res.mutexes i with lockCount := count }) := by
  have hset : ∀ j, j ≠ i → (s.setMutex i { s.res.mutexes i with lockCount := count }).res.mutexes j
      = s.res.mutexes j := fun j hj => Function.update_of_ne hj _ _
  have hself : (s.setMutex i { s.res.mutexes i with lockCount := count }).res.mutexes i
      = { s.res.mutexes i with lockCount := count } := Function.update_self _ _ _
  refine ⟨fun j hj => ?_, h.owned, fun j hj => ?_⟩
  · by_cases heq : j = i
    · rw [heq, hself]
      exact h.ids i hi
    · rw [hset j heq]
      exact h.ids j hj
  · by_cases heq : j = i
    · subst heq
      obtain ⟨hstate, -, p, hp, hown, hname, huniq⟩ := howned
      exact Or.inr ⟨by rw [hself]; exact hstate, by rw [hself]; exact hcount, p, hp, hown,
        by rw [hself]; exact hname, huniq⟩
    · exact owner_congr (h.mutex j hj) (by rw [hset j heq]; exact .refl _) rfl fun _ _ => ⟨Iff.rfl, rfl⟩

/-- A free mutex is given to a process that owns none. -/
theorem Owners.give (h : Owners s) {i p : Nat} {mutexId : Int} (hidx : IsMutex s i mutexId)
    (hp : p < s.nextProc) (hstate : (s.res.mutexes i).mutexState = .available)
    (hown : (s.proc p).ownedMutexId = noMutexOwned) : Owners (s.giveMutex i p mutexId) := by
  obtain ⟨hi, rfl⟩ := hidx
  have hid := h.ids i hi
  have hother : ∀ j, j ≠ i → (s.giveMutex i p (s.res.mutexes i).mutexId).res.mutexes j
      = s.res.mutexes j := fun j hj => Function.update_of_ne hj _ _
  have hself : (s.giveMutex i p (s.res.mutexes i).mutexId).res.mutexes i = { s.res.mutexes i with
      mutexState := .owned
      mutexOwner := (s.proc p).processId
      lockCount := (s.res.mutexes i).lockCount + 1
      savedOwnerPriority := (s.proc p).currentPriority } := Function.update_self _ _ _
  have hfree : FreeMutex s i := by
    rcases h.mutex i hi with hfree | howned
    · exact hfree
    · rw [howned.state] at hstate
      cases hstate
  have howner : ((s.giveMutex i p (s.res.mutexes i).mutexId).proc p).ownedMutexId = i + 1 := by
    rw [giveMutex_proc, if_pos rfl, hid]
  have hne : ∀ p', p' ≠ p → (s.giveMutex i p (s.res.mutexes i).mutexId).proc p' = s.proc p' := by
    intro p' hp'
    rw [giveMutex_proc, if_neg hp']
  have hprocessId : ∀ p', ((s.giveMutex i p (s.res.mutexes i).mutexId).proc p').processId
      = (s.proc p').processId := by
    intro p'
    by_cases heq : p' = p
    · rw [heq, giveMutex_proc, if_pos rfl]
    · rw [hne p' heq]
  refine ⟨fun j hj => ?_, fun p' hp' => ?_, fun j hj => ?_⟩
  · by_cases heq : j = i
    · rw [heq, hself]
      exact hid
    · rw [hother j heq]
      exact h.ids j hj
  · by_cases heq : p' = p
    · rw [heq]
      exact Or.inr ⟨i, hi, howner⟩
    · rw [hne p' heq]
      exact h.owned p' hp'
  · by_cases heq : j = i
    · subst heq
      refine Or.inr ⟨by rw [hself], ?_, p, hp, howner, by rw [hself, hprocessId], fun p' hp' hown' => ?_⟩
      · rw [hself]
        dsimp only
        rw [hfree.lockCount]
        exact ⟨le_refl _, by decide⟩
      · by_contra hp''
        rw [hne p' hp''] at hown'
        exact hfree.nobody p' hp' hown'
    · refine owner_congr (h.mutex j hj) (by rw [hother j heq]; exact .refl _) rfl fun p' _ =>
        ⟨?_, hprocessId p'⟩
      by_cases hp' : p' = p
      · rw [hp', howner, hown]
        refine iff_of_false (fun hij => heq ?_) fun hij => ?_
        · omega
        · rw [noMutexOwned] at hij
          omega
      · rw [hne p' hp']

/-- An owned mutex is taken back from its owner. -/
theorem Owners.takeBack (h : Owners s) {i p : Nat} {mutexId : Int} (hidx : IsMutex s i mutexId)
    (hp : p < s.nextProc) (hown : (s.proc p).ownedMutexId = mutexId) (priority : Int) :
    Owners ((s.setMutex i { s.res.mutexes i with
      mutexState := .available
      mutexOwner := nullProcessId
      lockCount := 0 }).modProc p fun x => { x with
        ownedMutexId := noMutexOwned
        currentPriority := priority }) := by
  obtain ⟨hi, rfl⟩ := hidx
  have hid := h.ids i hi
  rw [hid] at hown
  obtain ⟨-, -, q, hq, hqown, hname, huniq⟩ := h.ownedMutex hp hi hown
  have hpq := huniq p hp hown
  generalize ht : (s.setMutex i { s.res.mutexes i with
      mutexState := .available
      mutexOwner := nullProcessId
      lockCount := 0 }).modProc p (fun x => { x with
        ownedMutexId := noMutexOwned
        currentPriority := priority }) = t
  have hres : ∀ j, t.res.mutexes j = if j = i then { s.res.mutexes i with
      mutexState := .available
      mutexOwner := nullProcessId
      lockCount := 0 } else s.res.mutexes j := fun j => by rw [← ht]; exact Function.update_apply _ _ _ _
  have hproc : ∀ p', t.proc p' = if p' = p then { s.proc p with
      ownedMutexId := noMutexOwned
      currentPriority := priority } else s.proc p' := fun p' => by rw [← ht]; exact modProc_proc _ _ _ _
  have hcount : t.res.mutexCount = s.res.mutexCount := by rw [← ht]; rfl
  have hnext : t.nextProc = s.nextProc := by rw [← ht]; rfl
  refine ⟨fun j hj => ?_, fun p' hp' => ?_, fun j hj => ?_⟩
  · rw [hres]
    split
    · next heq => rw [heq]; exact hid
    · exact h.ids j (hcount ▸ hj)
  · rw [hproc, hcount]
    split
    · exact Or.inl rfl
    · exact h.owned p' (hnext ▸ hp')
  · by_cases heq : j = i
    · subst heq
      refine Or.inl ⟨by rw [hres, if_pos rfl], by rw [hres, if_pos rfl], fun p' hp' hown' => ?_⟩
      rw [hproc] at hown'
      split at hown'
      · dsimp only [noMutexOwned] at hown'
        omega
      · next hne =>
          exact hne ((huniq p' (hnext ▸ hp') hown').trans hpq.symm)
    · refine owner_congr (h.mutex j (hcount ▸ hj)) (by rw [hres, if_neg heq]; exact .refl _) hnext
        fun p' _ => ?_
      rw [hproc]
      split
      · next hp' =>
          rw [hp', hown]
          refine ⟨iff_of_false (fun hij => ?_) fun hij => heq ?_, rfl⟩
          · dsimp only [noMutexOwned] at hij
            omega
          · omega
      · exact ⟨Iff.rfl, rfl⟩

/-- A mutex created is free. -/
theorem Owners.newMutex (h : Owners s) {x : Mutex} (hid : x.mutexId = s.res.mutexCount + 1)
    (hstate : x.mutexState = .available) (hlock : x.lockCount = 0) :
    Owners { s.setMutex s.res.mutexCount x with
      res := { (s.setMutex s.res.mutexCount x).res with mutexCount := s.res.mutexCount + 1 } } := by
  have hold : ∀ i, i < s.res.mutexCount →
      Function.update s.res.mutexes s.res.mutexCount x i = s.res.mutexes i :=
    fun i hi => Function.update_of_ne hi.ne _ _
  have hnew : Function.update s.res.mutexes s.res.mutexCount x s.res.mutexCount = x :=
    Function.update_self _ _ _
  have hcase : ∀ i, i < s.res.mutexCount + 1 → i < s.res.mutexCount ∨ i = s.res.mutexCount :=
    fun i hi => by omega
  refine ⟨fun i hi => ?_, fun p hp => ?_, fun i hi => ?_⟩
  · rcases hcase i hi with hlt | rfl
    · exact (congrArg Mutex.mutexId (hold i hlt)).trans (h.ids i hlt)
    · exact (congrArg Mutex.mutexId hnew).trans hid
  · exact (h.owned p hp).imp_right fun ⟨i, hi, hown⟩ => ⟨i, hi.trans (Nat.lt_succ_self _), hown⟩
  · rcases hcase i hi with hlt | rfl
    · refine owner_congr (h.mutex i hlt) ?_ rfl fun _ _ => ⟨Iff.rfl, rfl⟩
      dsimp only [setMutex]
      rw [hold i hlt]
      exact .refl _
    · refine Or.inl ⟨?_, ?_, fun p hp heq => ?_⟩
      · exact (congrArg Mutex.mutexState hnew).trans hstate
      · exact (congrArg Mutex.lockCount hnew).trans hlock
      · rcases h.owned p hp with hno | ⟨j, hj, hown⟩
        · rw [show (s.proc p).ownedMutexId = _ from heq, noMutexOwned] at hno
          omega
        · rw [show (s.proc p).ownedMutexId = _ from heq] at hown
          omega

/-- A process created owns nothing. -/
theorem Owners.spawn (h : Owners s) {y : Process} {node : Node} {isErrorHandler : Bool}
    (hy : SpawnedAs (s.proc s.nextProc) y) : Owners (s.spawned y node isErrorHandler) := by
  have hold : ∀ p, p < s.nextProc → (s.spawned y node isErrorHandler).proc p = s.proc p :=
    fun p hp => Function.update_of_ne hp.ne _ _
  have hnew : (s.spawned y node isErrorHandler).proc s.nextProc = y := Function.update_self _ _ _
  have hcase : ∀ p, p < s.nextProc + 1 → p < s.nextProc ∨ p = s.nextProc := fun p hp => by omega
  refine ⟨h.ids, fun p hp => ?_, fun i hi => ?_⟩
  · rcases hcase p hp with hlt | rfl
    · rw [hold p hlt]
      exact h.owned p hlt
    · rw [hnew]
      exact Or.inl hy.ownedMutexId
  · rcases h.mutex i hi with ⟨ha, hb, hc⟩ | ⟨ha, hb, q, hq, hown, hname, huniq⟩
    · refine Or.inl ⟨ha, hb, fun p hp => ?_⟩
      rcases hcase p hp with hlt | rfl
      · rw [hold p hlt]
        exact hc p hlt
      · rw [hnew, hy.ownedMutexId, noMutexOwned]
        omega
    · refine Or.inr ⟨ha, hb, q, hq.trans (Nat.lt_succ_self _), by rw [hold q hq]; exact hown,
        by rw [hold q hq]; exact hname, fun p hp heq => ?_⟩
      rcases hcase p hp with hlt | rfl
      · rw [hold p hlt] at heq
        exact huniq p hlt heq
      · rw [hnew, hy.ownedMutexId, noMutexOwned] at heq
        omega

/-! ## Every move -/

/-- Nobody who waits for a mutex owns one. -/
def WaitersFree (s : Pcb) : Prop :=
  ∀ i p, p ∈ s.waitingProcesses (.mutex i) → (s.proc p).ownedMutexId = noMutexOwned

/-- The owner of a mutex is not told to wait for it. -/
theorem Owners.free_of_mustWait (h : Owners s) {p i : Nat} (hmust : MustWaitForMutex s p i)
    (hp : p < s.nextProc) : (s.proc p).ownedMutexId = noMutexOwned := by
  rcases hmust.free with hfree | hsame
  · exact hfree
  · rw [h.ids i hmust.index_lt] at hsame
    obtain ⟨-, -, q, -, -, hname, huniq⟩ := h.ownedMutex hp hmust.index_lt hsame
    rw [← huniq p hp hsame] at hname
    exact absurd hname hmust.other

theorem Owners.moveNode (h : Owners s) (node : Node) (p : Nat) (front follow : Bool) :
    Owners (s.moveNode node p front follow) := by
  obtain ⟨processes, current, heq, -, -⟩ := moveNode_eq s node p front follow
  rw [heq]
  exact h.congr rfl (fun _ => .refl _) rfl fun _ _ => ⟨rfl, rfl⟩

theorem Owners.handOver (h : Owners s) (hallocated : Allocated s) (hfree : WaitersFree s) {i : Nat}
    {mutexId : Int} (hhand : s.handMutexOver i mutexId = some s') (hidx : IsMutex s i mutexId)
    (hstate : (s.res.mutexes i).mutexState = .available) : Owners s' := by
  rcases handMutexOver_eq_some hhand with ⟨-, rfl⟩ | ⟨woken, t, node, hwake, -, rfl⟩
  · exact h
  · obtain ⟨rest, hlist, ht⟩ := wakeFirst_eq_some hwake
    have hmem : woken ∈ s.waitingProcesses (.mutex i) := by
      rw [hlist]
      exact List.mem_cons_self
    have hwoken : Owners t := by
      rw [ht]
      exact (h.modProc (p := woken) (f := wakeProcess (some .mutex) true) rfl rfl).congr rfl
        (fun _ => .refl _) rfl fun _ _ => ⟨rfl, rfl⟩
    have hnext : t.nextProc = s.nextProc := by rw [ht]; rfl
    have hres : t.res = s.res := by rw [ht]; rfl
    have hgiven : Owners (t.giveMutex i woken mutexId) := by
      refine hwoken.give ⟨by rw [hres]; exact hidx.index_lt, by rw [hres]; exact hidx.mutexId_eq⟩ ?_ ?_ ?_
      · rw [hnext]
        exact hallocated woken (Or.inr (Or.inr (Or.inl ⟨_, hmem⟩)))
      · rw [hres]
        exact hstate
      · rw [wakeFirst_proc hwake, if_pos rfl]
        exact hfree i woken hmem
    exact hgiven.moveNode node woken true false

/-- A pass over the processes that leaves their identifiers and what they own. -/
theorem Owners.visited (h : Owners s) {f : Process → Process}
    (hf : ∀ x, (f x).ownedMutexId = x.ownedMutexId ∧ (f x).processId = x.processId)
    (hproc : s'.proc = visited s.processes f s.proc) (hnext : s'.nextProc = s.nextProc)
    (hcount : s'.res.mutexCount = s.res.mutexCount) (hmutexes : s'.res.mutexes = s.res.mutexes) :
    Owners s' := by
  refine h.congr hcount (fun i => by rw [hmutexes]; exact .refl _) hnext fun p _ => ?_
  rw [hproc]
  exact visited_rel (R := fun x y => y.ownedMutexId = x.ownedMutexId ∧ y.processId = x.processId)
    (fun _ => ⟨rfl, rfl⟩) (fun _ _ _ h h' => ⟨h'.1.trans h.1, h'.2.trans h.2⟩) hf s.processes s.proc p

/-- Every move keeps the owners, when those who wait own nothing. -/
theorem Owners.move (h : Owners s) (hallocated : Allocated s) (hfree : WaitersFree s)
    (hm : Move A s s') : Owners s' := by
  have hcaller : ∀ {p}, Calls s p → p < s.nextProc := fun hcalls =>
    hallocated _ (Live.of_calls hcalls)
  cases hm with
  | frame hf =>
      refine h.congr hf.mutexCount (fun i => by rw [hf.mutexes]; exact .refl _) hf.nextProc fun p _ => ?_
      rw [hf.proc]
      exact ⟨rfl, rfl⟩
  | touch p f hf => exact h.modProc (hf _).ownedMutexId (hf _).processId
  | moveNode node p front follow hmovable => exact h.moveNode node p front follow
  | setPriority p priority hno hmax hA =>
      exact h.modProc (f := fun x => { x with currentPriority := priority }) rfl rfl
  | savePriority index p priority hidx hA =>
      refine h.congr rfl (fun i => ?_) rfl fun _ _ => ⟨rfl, rfl⟩
      show SameMutex _ (Function.update s.res.mutexes index _ i)
      by_cases hi : i = index
      · rw [hi, Function.update_self]
        exact ⟨rfl, rfl, rfl, rfl⟩
      · rw [Function.update_of_ne hi]
        exact .refl _
  | block p q linked discipline timer k hcalls hkind hmutex hk hown hA =>
      rw [blocked_eq]
      exact (h.modProc (p := p) (f := fun x => { blockedRecord q linked timer x with context := k })
        rfl rfl).congr rfl (fun _ => .refl _) rfl fun _ _ => ⟨rfl, rfl⟩
  | blockOnErrors p error k hcalls hk hA =>
      rw [blockedOnErrors_eq]
      exact (h.modProc (p := p) (f := fun x =>
        { x with processState := .waiting, pendingError := error, context := k }) rfl rfl).congr rfl
          (fun _ => .refl _) rfl fun _ _ => ⟨rfl, rfl⟩
  | sleep p f k timer hcalls hk hf hA =>
      exact (h.modProc (hf _).ownedMutexId (hf _).processId).congr rfl (fun _ => .refl _) rfl
        fun _ _ => ⟨rfl, rfl⟩
  | yield p k hcalls hk =>
      exact (h.modProc (p := p) (f := fun x => { x with context := k }) rfl rfl).congr rfl
        (fun _ => .refl _) rfl fun _ _ => ⟨rfl, rfl⟩
  | wake q cancel p hwake hq hA =>
      obtain ⟨rest, -, rfl⟩ := wakeFirst_eq_some hwake
      exact (h.modProc (p := p) (f := wakeProcess q.kind cancel) rfl rfl).congr rfl
        (fun _ => .refl _) rfl fun _ _ => ⟨rfl, rfl⟩
  | handOver index mutexId hhand hidx hstate hA => exact h.handOver hallocated hfree hhand hidx hstate
  | acquire index p node mutexId hcalls hidx hnode hdata hstate hno hA hnot =>
      have hp := hcaller hcalls
      have hown : (s.proc p).ownedMutexId = noMutexOwned := by
        rcases hno with hno | hsame
        · exact hno
        · -- the mutex is free: nobody owns it
          rw [← hidx.mutexId_eq, h.ids index hidx.index_lt] at hsame
          rw [(h.ownedMutex hp hidx.index_lt hsame).state] at hstate
          cases hstate
      exact (h.give hidx hp hstate hown).moveNode node p true true
  | relock index p mutexId hcalls hidx hstate hmax =>
      rcases h.mutex index hidx.index_lt with hfreeMutex | howned
      · exact absurd hfreeMutex.state hstate
      · refine h.relock hidx.index_lt howned ⟨?_, ?_⟩
        · have := howned.lockCount.1
          omega
        · have := howned.lockCount.2
          omega
  | unlock index p mutexId hcalls hidx hown hlock =>
      rw [← hidx.mutexId_eq, h.ids index hidx.index_lt] at hown
      have howned := h.ownedMutex (hcaller hcalls) hidx.index_lt hown
      refine h.relock hidx.index_lt howned ⟨?_, ?_⟩
      · have := howned.lockCount.1
        omega
      · have := howned.lockCount.2
        omega
  | takeBack index p node follow mutexId hrun hidx hown hmovable hA =>
      rw [takenBack_eq]
      exact (h.takeBack hidx (hallocated p hmovable.live) hown _).moveNode node p true follow
  | suspend | resume | selfReady | timerOff | fault | ignore | readyHandler | initHandler =>
      exact h.modProc rfl rfl
  | stop node hnode hother hA =>
      obtain ⟨w, l, c, heq⟩ := stopped_eq s node.data
      rw [heq]
      exact (h.modProc (p := node.data) (f := fun x => { makeDormant x with
        waiting := w
        deadlineTime := infiniteTimeValue }) rfl rfl).congr rfl (fun _ => .refl _) rfl
          fun _ _ => ⟨rfl, rfl⟩
  | stopSelf p hcalls hA =>
      exact (h.modProc (p := p) (f := makeDormant) rfl rfl).congr rfl (fun _ => .refl _) rfl
        fun _ _ => ⟨rfl, rfl⟩
  | start node delayed f hnode hstate hf hA => exact h.modProc hf.ownedMutexId hf.processId
  | schedule hctl hmode =>
      obtain ⟨proc, current, heq, hproc, -⟩ := processSchedule_eq s
      rw [heq]
      refine h.congr rfl (fun _ => .refl _) rfl fun p _ => ?_
      obtain ⟨st, hst, -⟩ := hproc p
      dsimp only
      rw [hst]
      exact ⟨rfl, rfl⟩
  | release hctl hA =>
      rw [forEachProcess_eq]
      refine h.visited (fun x => ?_) rfl rfl rfl rfl
      unfold checkAndReleasePeriodicWaitingProcesses
      split_ifs <;> exact ⟨rfl, rfl⟩
  | timeOuts hctl hA =>
      rw [forEachProcess_eq]
      refine h.visited (fun x => ?_) rfl rfl rfl rfl
      unfold checkTimeouts
      split_ifs <;> exact ⟨rfl, rfl⟩
  | spawn y node isErrorHandler hrun hmode hnode hfirst hy hA => exact h.spawn hy
  | freshLists k i hmode =>
      obtain ⟨lists, counts, heq⟩ := freshLists_eq s (listsOf k i)
      rw [heq]
      exact h.congr rfl (fun _ => .refl _) rfl fun _ _ => ⟨rfl, rfl⟩
  | newMutex x hmode hid hstate hlock => exact h.newMutex hid hstate hlock
  | toNormal point hrun hmode hA =>
      rw [forEachProcess_eq]
      refine h.visited (fun x => ?_) rfl rfl rfl rfl
      obtain ⟨release, deadline, heq⟩ := startProcess_eq s.krnl.uptime point x
      rw [heq]
      exact ⟨rfl, rfl⟩
  | _ => exact h.congr rfl (fun _ => .refl _) rfl fun _ _ => ⟨rfl, rfl⟩

end Pcb

end UcxArinc
