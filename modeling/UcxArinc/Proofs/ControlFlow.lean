import UcxArinc.Implementation.StaticConf
import UcxArinc.Proofs.ProcessMoves

set_option autoImplicit false

/-! # Who executes

`Sound` is the invariant that ties the code a partition executes to its operating mode and to the
states of its processes: a process executes only in `NORMAL` mode and is then neither `WAITING` nor
`DORMANT`, the entry point executes only while the partition starts, and no linked process but the
current one is `RUNNING`. Every move keeps it. -/

namespace UcxArinc

namespace Pcb

variable {A : Permit} {s s' : Pcb}

structure Sound (s : Pcb) : Prop where
  process : s.ctl = .process → s.status.operatingMode = .normal
    ∧ ∀ c, s.processCurrent = some c → (s.proc c.data).processState ≠ .waiting
      ∧ (s.proc c.data).processState ≠ .dormant
  main : s.ctl = .mainProcess → Starting s
  starting : Starting s → s.processCurrent = none
    ∧ ∀ n ∈ s.processes, (s.proc n.data).processState ≠ .running
  running : s.status.operatingMode = .normal → OneRunning s

/-! ## Moves that keep the process list -/

/-- A partition that executes nothing new, in which no process starts to run. -/
theorem Sound.congr (h : Sound s) (hctl : s'.ctl = s.ctl ∨ s'.ctl = .partitionOs ∨ s'.ctl = .crashed)
    (hmode : s'.status.operatingMode = s.status.operatingMode)
    (hcur : s'.processCurrent = s.processCurrent) (hprocesses : s'.processes = s.processes)
    (hrun : ∀ p, (s'.proc p).processState = .running → (s.proc p).processState = .running)
    (hstate : s'.ctl = .process → ∀ c, s.processCurrent = some c →
      (s'.proc c.data).processState ≠ .waiting ∧ (s'.proc c.data).processState ≠ .dormant) :
    Sound s' := by
  have hctl' : ∀ k, k = .process ∨ k = .mainProcess → s'.ctl = k → s.ctl = k := by
    rintro k hk hs'
    rcases hctl with hsame | hos | hcrash
    · rw [← hsame, hs']
    · rw [hos] at hs'
      subst hs'
      rcases hk with hk | hk <;> cases hk
    · rw [hcrash] at hs'
      subst hs'
      rcases hk with hk | hk <;> cases hk
  refine ⟨fun hp => ⟨?_, ?_⟩, fun hm => ?_, fun hs => ⟨?_, ?_⟩, fun hn => ?_⟩
  · rw [hmode]
    exact (h.process (hctl' _ (Or.inl rfl) hp)).1
  · rw [hcur]
    exact hstate hp
  · rw [Starting, hmode]
    exact h.main (hctl' _ (Or.inr rfl) hm)
  · rw [hcur]
    rw [Starting, hmode] at hs
    exact (h.starting hs).1
  · rw [Starting, hmode] at hs
    rw [hprocesses]
    exact fun n hn hr => (h.starting hs).2 n hn (hrun _ hr)
  · rw [hmode] at hn
    intro n hmem hr
    rw [hcur]
    rw [hprocesses] at hmem
    exact h.running hn n hmem (hrun _ hr)

/-- A rewritten record whose process does not start to run; the current process, if it is the one, does
    not stop. -/
theorem Sound.modProc (h : Sound s) {p : Nat} {f : Process → Process}
    (hrun : (f (s.proc p)).processState = .running → (s.proc p).processState = .running)
    (hstate : ∀ c, s.processCurrent = some c → c.data = p → s.ctl = .process →
      (f (s.proc p)).processState ≠ .waiting ∧ (f (s.proc p)).processState ≠ .dormant) :
    Sound (s.modProc p f) := by
  refine h.congr (Or.inl rfl) rfl rfl rfl (fun p' hr => ?_) fun hp c hc => ?_
  · by_cases hp' : p' = p
    · subst hp'
      rw [modProc_proc_self] at hr
      exact hrun hr
    · rwa [modProc_proc_of_ne hp'] at hr
  · by_cases hp' : c.data = p
    · rw [hp', modProc_proc_self]
      exact hstate c hc hp' hp
    · rw [modProc_proc_of_ne hp']
      exact (h.process hp).2 c hc

/-- A rewrite that keeps the process state. -/
theorem Sound.modProc_same (h : Sound s) {p : Nat} {f : Process → Process}
    (hf : (f (s.proc p)).processState = (s.proc p).processState) : Sound (s.modProc p f) := by
  refine h.modProc (fun hr => hf ▸ hr) fun c hc hp hctl => ?_
  rw [hf, ← hp]
  exact (h.process hctl).2 c hc

theorem Sound.toPartitionOs (h : Sound s) : Sound s.toPartitionOs :=
  h.congr (Or.inr (Or.inl rfl)) rfl rfl rfl (fun _ hr => hr) fun hp => Control.noConfusion hp

/-- A process goes to sleep, and the partition OS executes. -/
theorem Sound.sleep (h : Sound s) {p : Nat} {f : Process → Process}
    (hf : (f (s.proc p)).processState ≠ .running) : Sound (s.modProc p f).toPartitionOs := by
  refine h.congr (Or.inr (Or.inl rfl)) rfl rfl rfl (fun p' hr => ?_) fun hp => Control.noConfusion hp
  by_cases hp' : p' = p
  · subst hp'
    exact absurd (modProc_proc_self s p' f ▸ hr) hf
  · rwa [show (s.modProc p f).toPartitionOs.proc p' = s.proc p' from
      modProc_proc_of_ne hp' s f] at hr

/-! ## Moves of a node -/

/-- The current process and its list after the node of `p` has moved. -/
theorem moveNode_fields (s : Pcb) (node : Node) (p : Nat) (front follow : Bool) :
    ∃ newNode : Node, newNode.data = p
      ∧ (∀ n, n ∈ (s.moveNode node p front follow).processes → n = newNode ∨ n ∈ s.processes)
      ∧ (s.moveNode node p front follow).processCurrent
        = if follow then some newNode else s.processCurrent := by
  refine ⟨⟨s.nextNode, p⟩, rfl, fun n hn => ?_, ?_⟩
  · cases front <;> cases follow
    all_goals
      simp only [moveNode, listPush, listPushback, listRemove, setCurrent, if_true,
        Bool.false_eq_true, if_false, List.mem_append, List.mem_cons, List.not_mem_nil,
        or_false] at hn
    · exact hn.symm.imp id List.mem_of_mem_erase
    · exact hn.symm.imp id List.mem_of_mem_erase
    · exact hn.imp id List.mem_of_mem_erase
    · exact hn.imp id List.mem_of_mem_erase
  · cases front <;> cases follow <;> rfl

theorem moveNode_rest (s : Pcb) (node : Node) (p : Nat) (front follow : Bool) :
    (s.moveNode node p front follow).ctl = s.ctl ∧ (s.moveNode node p front follow).proc = s.proc
      ∧ (s.moveNode node p front follow).status = s.status := by
  cases front <;> cases follow <;> exact ⟨rfl, rfl, rfl⟩

/-- A node that moves changes the process list and perhaps the current process, by nodes of `p`. -/
theorem moveNode_eq (s : Pcb) (node : Node) (p : Nat) (front follow : Bool) :
    ∃ processes current, s.moveNode node p front follow = { s with
        processes := processes
        processCurrent := current
        nextNode := s.nextNode + 1 }
      ∧ (∀ n ∈ processes, n.data = p ∨ n ∈ s.processes)
      ∧ ∀ c, current = some c → c.data = p ∨ s.processCurrent = some c := by
  obtain ⟨newNode, hdata, hmem, hcur⟩ := moveNode_fields s node p front follow
  refine ⟨(s.moveNode node p front follow).processes, (s.moveNode node p front follow).processCurrent,
    ?_, fun n hn => ?_, fun c hc => ?_⟩
  · cases front <;> cases follow <;> rfl
  · rcases hmem n hn with rfl | hin
    · exact Or.inl hdata
    · exact Or.inr hin
  · rw [hcur] at hc
    split at hc
    · cases hc
      exact Or.inl hdata
    · exact Or.inr hc

theorem Sound.moveNode (h : Sound s) {node : Node} {p : Nat} {follow : Bool} (front : Bool)
    (hmovable : Movable s node p follow) : Sound (s.moveNode node p front follow) := by
  obtain ⟨newNode, hdata, hmem, hcur⟩ := moveNode_fields s node p front follow
  obtain ⟨hctl, hproc, hstatus⟩ := moveNode_rest s node p front follow
  obtain ⟨hnode, hlinked, hfollows, hfollowed⟩ := hmovable
  -- a running process that moves is the current one
  have hlist : (s.proc p).processState = .running → s.status.operatingMode = .normal →
      ∃ c, s.processCurrent = some c ∧ c.data = p := by
    intro hr hn
    rcases hlinked with hin | hc
    · obtain ⟨c, hc, hcd⟩ := h.running hn node hin (hnode ▸ hr)
      exact ⟨c, hc, hcd.trans hnode⟩
    · exact ⟨node, hc, hnode⟩
  have hcurrent : follow = true → s.status.operatingMode = .normal →
      ∃ c, s.processCurrent = some c ∧ c.data = p := by
    intro hf hn
    rcases hfollowed hf with hr | hc
    · exact hlist hr hn
    · exact ⟨node, hc, hnode⟩
  have hidle : Starting s → follow = false ∧ (s.proc p).processState ≠ .running := by
    intro hs
    obtain ⟨hnone, hno⟩ := h.starting hs
    have hnotrun : (s.proc p).processState ≠ .running := by
      rcases hlinked with hin | hc
      · rw [← hnode]
        exact hno node hin
      · rw [hnone] at hc
        cases hc
    refine ⟨?_, hnotrun⟩
    cases follow with
    | false => rfl
    | true =>
        rcases hfollowed rfl with hr | hc
        · exact absurd hr hnotrun
        · rw [hnone] at hc
          cases hc
  refine ⟨fun hp => ?_, fun hm => ?_, fun hs => ?_, fun hn => ?_⟩
  · rw [hctl] at hp
    rw [hstatus, hproc, hcur]
    refine ⟨(h.process hp).1, fun c hc => ?_⟩
    cases follow with
    | false => exact (h.process hp).2 c hc
    | true =>
        obtain ⟨c', hc', hd⟩ := hcurrent rfl (h.process hp).1
        cases hc
        rw [hdata, ← hd]
        exact (h.process hp).2 c' hc'
  · rw [hctl] at hm
    rw [Starting, hstatus]
    exact h.main hm
  · rw [Starting, hstatus] at hs
    obtain ⟨hff, hnotrun⟩ := hidle hs
    refine ⟨by rw [hcur, hff]; exact (h.starting hs).1, fun n hmem' => ?_⟩
    rw [hproc]
    rcases hmem n hmem' with rfl | hin
    · rw [hdata]
      exact hnotrun
    · exact (h.starting hs).2 n hin
  · rw [hstatus] at hn
    intro n hmem' hr
    rw [hproc] at hr
    rw [hcur]
    rcases hmem n hmem' with rfl | hin
    · rw [hdata] at hr
      rw [hfollows hr]
      exact ⟨n, rfl, rfl⟩
    · obtain ⟨c, hc, hcd⟩ := h.running hn n hin hr
      cases follow with
      | false => exact ⟨c, hc, hcd⟩
      | true =>
          obtain ⟨c', hc', hd⟩ := hcurrent rfl hn
          rw [hc] at hc'
          cases hc'
          exact ⟨newNode, rfl, hdata.trans (hd.symm.trans hcd)⟩

/-! ## Moves of a mutex -/

theorem Sound.give (h : Sound s) (index p : Nat) (mutexId : Int) :
    Sound (s.giveMutex index p mutexId) := by
  refine h.congr (Or.inl rfl) rfl rfl rfl (fun p' hr => ?_) fun hp c hc => ?_
  · rwa [giveMutex_processState] at hr
  · rw [giveMutex_processState]
    exact (h.process hp).2 c hc

theorem Sound.wake (h : Sound s) {q : WaitList} {cancel : Bool} {p : Nat}
    (hwake : s.wakeFirst q cancel = some (p, s')) : Sound s' := by
  obtain ⟨rest, -, rfl⟩ := wakeFirst_eq_some hwake
  have hready := h.modProc (p := p) (f := wakeProcess q.kind cancel)
    (fun hr => ProcessState.noConfusion hr)
    fun _ _ _ _ => ⟨ProcessState.noConfusion, ProcessState.noConfusion⟩
  exact hready.congr (Or.inl rfl) rfl rfl rfl (fun _ hr => hr) fun hp c hc => (hready.process hp).2 c hc

/-- A mutex given back, as the move of a node. -/
theorem takenBack_eq (s : Pcb) (index p : Nat) (node : Node) (follow : Bool) :
    s.takenBack index p node follow
      = ((s.setMutex index { s.res.mutexes index with
          mutexState := .available
          mutexOwner := nullProcessId
          lockCount := 0 }).modProc p fun x => { x with
            ownedMutexId := noMutexOwned
            currentPriority := (s.res.mutexes index).savedOwnerPriority }).moveNode node p true
              follow := by
  cases follow <;> rfl

theorem Sound.takenBack (h : Sound s) {index p : Nat} {node : Node} {follow : Bool}
    (hmovable : Movable s node p follow) : Sound (s.takenBack index p node follow) := by
  rw [takenBack_eq]
  have hset := @Sound.congr _ (s.setMutex index { s.res.mutexes index with
    mutexState := .available
    mutexOwner := nullProcessId
    lockCount := 0 }) h (Or.inl rfl) rfl rfl rfl (fun _ hr => hr) fun hp c hc => (h.process hp).2 c hc
  refine Sound.moveNode (hset.modProc_same rfl) true ?_
  obtain ⟨hdata, hlinked, hfollows, hfollowed⟩ := hmovable
  refine ⟨hdata, hlinked, fun hr => hfollows ?_, fun hf => (hfollowed hf).imp_left fun hr => ?_⟩
  · rw [modProc_proc_self] at hr
    exact hr
  · rw [modProc_proc_self]
    exact hr

theorem Sound.handOver (h : Sound s) {index : Nat} {mutexId : Int}
    (hhand : s.handMutexOver index mutexId = some s') : Sound s' := by
  rcases handMutexOver_eq_some hhand with ⟨-, rfl⟩ | ⟨woken, t, node, hwake, -, rfl⟩
  · exact h
  · have hgive := (h.wake hwake).give index woken mutexId
    have hready : ((t.giveMutex index woken mutexId).proc woken).processState = .ready :=
      (giveMutex_processState t index woken woken mutexId).trans (wakeFirst_ready hwake)
    generalize t.giveMutex index woken mutexId = u at hgive hready
    -- the woken process is `READY`: its new node does not run
    obtain ⟨newNode, hdata, hmem, -⟩ := moveNode_fields u node woken true false
    have hno : newNode.data = woken → (u.proc newNode.data).processState ≠ .running := by
      intro hd hr
      rw [hd, hready] at hr
      cases hr
    refine ⟨hgive.process, hgive.main, fun hs => ⟨(hgive.starting hs).1, fun n hn => ?_⟩,
      fun hn n hnmem hr => ?_⟩
    · rcases hmem n hn with rfl | hin
      · exact hno hdata
      · exact (hgive.starting hs).2 n hin
    · rcases hmem n hnmem with rfl | hin
      · exact absurd hr (hno hdata)
      · exact hgive.running hn n hin hr

/-! ## The scheduler -/

/-- Once the running process is `READY` again no linked process runs. -/
theorem requeueCurrent_not_running (h : OneRunning s) :
    ∀ n ∈ s.processes, (s.requeueCurrent.proc n.data).processState ≠ .running := by
  intro n hn hr
  rcases requeueCurrent_eq s with heq | ⟨node, hnode, hself, heq⟩
  · rw [heq] at hr
    obtain ⟨c, hc, hd⟩ := h n hn hr
    unfold requeueCurrent at heq
    rw [hc] at heq
    dsimp only at heq
    rw [hd, if_pos hr] at heq
    -- the current process was put back to `READY`
    have hready : (s.proc n.data).processState = .ready := by
      rw [← heq, modProc_proc_self]
    rw [hready] at hr
    cases hr
  · rw [heq] at hr
    by_cases hp : n.data = node.data
    · rw [hp, modProc_proc_self] at hr
      cases hr
    · rw [modProc_proc_of_ne hp] at hr
      obtain ⟨c, hc, hd⟩ := h n hn hr
      rw [hnode] at hc
      cases hc
      exact hp hd.symm

theorem requeueCurrent_processes (s : Pcb) : s.requeueCurrent.processes = s.processes := by
  rcases requeueCurrent_eq s with h | ⟨node, -, -, h⟩ <;> rw [h]
  rfl

theorem Sound.schedule (h : Sound s) (hctl : s.ctl = .partitionOs) (hmode : ¬ Starting s) :
    Sound s.processSchedule := by
  obtain ⟨hstatus, hctl', -⟩ := processSchedule_same s
  refine ⟨fun hp => ?_, fun hm => ?_, fun hs => ?_, fun hn => ?_⟩
  · rw [hctl', hctl] at hp
    cases hp
  · rw [hctl', hctl] at hm
    cases hm
  · rw [Starting, hstatus] at hs
    exact absurd hs hmode
  · rw [hstatus] at hn
    have hno := requeueCurrent_not_running (h.running hn)
    have hprocesses := requeueCurrent_processes s
    intro n hnmem hr
    rcases processSchedule_cases s with ⟨p, -, -, heq⟩ | ⟨node, -, -, heq⟩ | heq
    · rw [heq] at hnmem hr ⊢
      have hnp : n.data = p := by
        by_contra hne
        rw [dispatch, modProc_proc_of_ne hne] at hr
        exact hno n (hprocesses ▸ hnmem) hr
      -- the handler is linked: its node is found
      have hsome : (s.requeueCurrent.processes.find? fun n => decide (n.data = p)).isSome := by
        rw [List.find?_isSome]
        exact ⟨n, hnmem, decide_eq_true hnp⟩
      obtain ⟨c, hc⟩ := Option.isSome_iff_exists.mp hsome
      refine ⟨c, hc, ?_⟩
      rw [hnp]
      simpa using List.find?_some hc
    · rw [heq] at hnmem hr ⊢
      have hnp : n.data = node.data := by
        by_contra hne
        rw [dispatch, modProc_proc_of_ne hne] at hr
        exact hno n (hprocesses ▸ hnmem) hr
      exact ⟨node, rfl, hnp.symm⟩
    · rw [heq] at hnmem hr
      exact absurd hr (hno n (hprocesses ▸ hnmem))

/-- A pass over the processes that makes none of them run. -/
theorem visited_not_running {f : Process → Process}
    (hf : ∀ x, (f x).processState = .running → x.processState = .running) (nodes : List Node)
    (proc : Nat → Process) (p : Nat) :
    (visited nodes f proc p).processState = .running → (proc p).processState = .running :=
  visited_rel (R := fun x y => y.processState = .running → x.processState = .running)
    (fun _ h => h) (fun _ _ _ h h' hr => h (h' hr)) hf nodes proc p

theorem checkAndRelease_not_running (uptime : Nat) (x : Process)
    (h : (checkAndReleasePeriodicWaitingProcesses uptime x).processState = .running) :
    x.processState = .running := by
  unfold checkAndReleasePeriodicWaitingProcesses at h
  split_ifs at h
  exact h

theorem checkTimeouts_not_running (uptime : Nat) (x : Process)
    (h : (checkTimeouts uptime x).processState = .running) : x.processState = .running := by
  unfold checkTimeouts at h
  split_ifs at h
  exact h

theorem startProcess_not_running (uptime : Nat) (point : Int) (x : Process)
    (h : (startProcess uptime point x).processState = .running) : x.processState = .running := by
  obtain ⟨release, deadline, heq⟩ := startProcess_eq uptime point x
  rw [heq] at h
  dsimp only at h
  split_ifs at h
  exact h

theorem Sound.ready (h : Sound s) {p : Nat} {f : Process → Process}
    (hf : (f (s.proc p)).processState = .ready) : Sound (s.modProc p f) := by
  refine h.modProc (fun hr => ?_) fun _ _ _ _ => ?_
  · rw [hf] at hr
    cases hr
  · rw [hf]
    exact ⟨ProcessState.noConfusion, ProcessState.noConfusion⟩

theorem Sound.forEachProcess (h : Sound s) {f : Process → Process} (hctl : s.ctl = .partitionOs)
    (hf : ∀ x, (f x).processState = .running → x.processState = .running) :
    Sound (s.forEachProcess f) := by
  rw [forEachProcess_eq]
  refine h.congr (Or.inl rfl) rfl rfl rfl (visited_not_running hf _ _) fun hp => ?_
  rw [show s.ctl = .process from hp] at hctl
  cases hctl

/-! ## Every move -/

theorem Sound.stop (h : Sound s) {p : Nat}
    (hother : ∀ c, s.processCurrent = some c → (s.proc p).processId ≠ (s.proc c.data).processId) :
    Sound (s.stopped p) := by
  obtain ⟨w, l, c, heq⟩ := stopped_eq s p
  rw [heq]
  have hdormant := h.modProc (p := p) (f := fun x => { makeDormant x with
      waiting := w
      deadlineTime := infiniteTimeValue }) (fun hr => ProcessState.noConfusion hr)
    fun c hc hd _ => absurd (by rw [hd]) (hother c hc)
  exact hdormant.congr (Or.inl rfl) rfl rfl rfl (fun _ hr => hr) fun hp c hc =>
    (hdormant.process hp).2 c hc

/-- Every move keeps the invariant. -/
theorem Sound.move (h : Sound s) (hm : Move A s s') : Sound s' := by
  have hstays : s.ctl = .process → ∀ c, s.processCurrent = some c →
      (s.proc c.data).processState ≠ .waiting ∧ (s.proc c.data).processState ≠ .dormant :=
    fun hp c hc => (h.process hp).2 c hc
  cases hm with
  | frame hf =>
      refine h.congr (Or.inl hf.ctl) hf.operatingMode hf.processCurrent hf.processes ?_ ?_
      · intro p hr
        rwa [hf.proc] at hr
      · rw [hf.ctl, hf.proc]
        exact hstays
  | touch p f hf => exact h.modProc_same (hf _).processState
  | moveNode node p front follow hmovable => exact h.moveNode front hmovable
  | block p q linked discipline timer k hcalls hkind hmutex hk hA =>
      rw [blocked_eq]
      have hsleep := h.sleep (p := p) (f := fun x => { blockedRecord q linked timer x with context := k })
        ProcessState.noConfusion
      exact hsleep.congr (Or.inl rfl) rfl rfl rfl (fun _ hr => hr) fun hp => Control.noConfusion hp
  | blockOnErrors p error k hcalls hk hA =>
      rw [blockedOnErrors_eq]
      have hsleep := h.sleep (p := p)
        (f := fun x => { x with processState := .waiting, pendingError := error, context := k })
        ProcessState.noConfusion
      exact hsleep.congr (Or.inl rfl) rfl rfl rfl (fun _ hr => hr) fun hp => Control.noConfusion hp
  | setPriority p priority hfree hmax => exact h.modProc_same rfl
  | savePriority index p priority hidx =>
      exact h.congr (Or.inl rfl) rfl rfl rfl (fun _ hr => hr) hstays
  | sleep p f k timer hcalls hk hf hA =>
      refine h.sleep fun hr => ?_
      rw [(hf _).processState] at hr
      cases hr
  | yield p k hcalls hk => exact (h.modProc_same rfl).toPartitionOs
  | wake q cancel p hwake hq => exact h.wake hwake
  | handOver index mutexId hhand hidx hstate => exact h.handOver hhand
  | acquire index p node mutexId hcalls hidx hnode hdata hstate hfree =>
      exact (h.give index p mutexId).moveNode true
        ⟨hdata, Or.inr hnode, fun _ => rfl, fun _ => Or.inr hnode⟩
  | relock index p mutexId hcalls hidx hstate hmax =>
      exact h.congr (Or.inl rfl) rfl rfl rfl (fun _ hr => hr) hstays
  | unlock index p mutexId hcalls hidx hown hlock =>
      exact h.congr (Or.inl rfl) rfl rfl rfl (fun _ hr => hr) hstays
  | takeBack index p node follow mutexId hrun hidx hown hmovable hA => exact h.takenBack hmovable
  | suspend node hnode hother hmutex howns hstate hA =>
      exact h.modProc (fun hr => ProcessState.noConfusion hr)
        fun c hc hd _ => absurd (by rw [hd]) (hother c hc)
  | resume node hnode hstate hwas => exact h.ready rfl
  | stop node hnode hother hA => exact h.stop hother
  | stopSelf p hcalls => exact h.sleep ProcessState.noConfusion
  | start node delayed f hnode hstate hf hA =>
      refine h.modProc (fun hr => ?_) fun c hc hd hctl => absurd (hd ▸ hstate) (hstays hctl c hc).2
      rcases hf.processState with hready | hwaiting
      · rw [hready] at hr
        cases hr
      · rw [hwaiting] at hr
        cases hr
  | selfReady p hcalls => exact h.ready rfl
  | timerOff p hcalls => exact h.modProc_same rfl
  | fault p hcalls hA =>
      exact h.modProc (fun hr => ProcessState.noConfusion hr)
        fun _ _ _ _ => ⟨ProcessState.noConfusion, ProcessState.noConfusion⟩
  | ignore node c hnode hc hid hA => exact h.ready rfl
  | readyHandler p hp => exact h.ready rfl
  | initHandler p hp => exact h.modProc_same rfl
  | schedule hctl hmode => exact h.schedule hctl hmode
  | release hctl => exact h.forEachProcess hctl (checkAndRelease_not_running _)
  | timeOuts hctl => exact h.forEachProcess hctl (checkTimeouts_not_running _)
  | run node hnode hlinked hstate hmode =>
      refine ⟨fun _ => ⟨hmode, fun c hc => ?_⟩, fun hm => Control.noConfusion hm, h.starting,
        h.running⟩
      rw [show s.processCurrent = some c from hc] at hnode
      cases hnode
      dsimp only
      rw [hstate]
      exact ⟨ProcessState.noConfusion, ProcessState.noConfusion⟩
  | main hmode =>
      exact ⟨fun hp => Control.noConfusion hp, fun _ => hmode, h.starting, h.running⟩
  | toOs => exact h.toPartitionOs
  | crash =>
      exact h.congr (Or.inr (Or.inr rfl)) rfl rfl rfl (fun _ hr => hr) fun hp => Control.noConfusion hp
  | spawn y node isErrorHandler hrun hmode hnode hfirst hy hA =>
      refine ⟨fun hp => absurd (h.process hp).1 hmode, h.main, fun hs => ⟨(h.starting hs).1, ?_⟩,
        fun hn => absurd hn hmode⟩
      intro n hn hr
      by_cases hd : n.data = s.nextProc
      · rw [show (s.spawned y node isErrorHandler).proc n.data = y by
          rw [hd]; exact Function.update_self _ _ _, hy.processState] at hr
        cases hr
      · rw [show (s.spawned y node isErrorHandler).proc n.data = s.proc n.data from
          Function.update_of_ne hd _ _] at hr
        rcases List.mem_append.mp hn with hin | hin
        · exact (h.starting hs).2 n hin hr
        · rw [List.mem_singleton.mp hin] at hd
          exact hd hnode
  | freshLists k i hmode =>
      obtain ⟨lists, counts, heq⟩ := freshLists_eq s (listsOf k i)
      rw [heq]
      exact h.congr (Or.inl rfl) rfl rfl rfl (fun _ hr => hr) hstays
  | newMutex x hmode hid hstate hlock =>
      exact h.congr (Or.inl rfl) rfl rfl rfl (fun _ hr => hr) hstays
  | newSamplingPort row port hmode hrow hport hA =>
      exact h.congr (Or.inl rfl) rfl rfl rfl (fun _ hr => hr) hstays
  | newQueuingPort row port hmode hrow hport hA =>
      exact h.congr (Or.inl rfl) rfl rfl rfl (fun _ hr => hr) hstays
  | toIdle hA =>
      exact ⟨fun hp => Control.noConfusion hp, fun hm => Control.noConfusion hm,
        fun hs => hs.elim (fun hc => OperatingMode.noConfusion hc) fun hw => OperatingMode.noConfusion hw,
        fun hn => OperatingMode.noConfusion hn⟩
  | toStart mode hmode hA =>
      refine ⟨fun hp => Control.noConfusion hp, fun hm => Control.noConfusion hm,
        fun _ => ⟨rfl, fun n hn => absurd hn List.not_mem_nil⟩, fun _ n hn => absurd hn List.not_mem_nil⟩
  | toNormal point hrun hmode hA =>
      rw [forEachProcess_eq]
      -- a partition that is not yet in `NORMAL` mode starts
      have hstarting : Starting s := by
        rcases hrun with hp | hm
        · exact absurd (h.process hp).1 hmode
        · exact h.main hm
      refine ⟨fun hp => Control.noConfusion hp, fun hm => Control.noConfusion hm,
        fun hs => hs.elim (fun hc => OperatingMode.noConfusion hc) fun hw => OperatingMode.noConfusion hw,
        fun _ n hn hr => ?_⟩
      exact absurd (visited_not_running (startProcess_not_running _ _) _ _ _ hr)
        ((h.starting hstarting).2 n hn)

theorem Sound.moves (h : Sound s) (hm : Moves A s s') : Sound s' := by
  induction hm with
  | refl => exact h
  | tail _ hmove ih => exact ih.move hmove

/-- The code of a process executes: it does not wait, and the partition does not start. -/
theorem Calls.active (h : Sound s) {p : Nat} (hcalls : Calls s p) :
    (s.proc p).processState ≠ .waiting ∧ (s.proc p).processState ≠ .dormant ∧ ¬ Starting s := by
  obtain ⟨hrun, c, hc, rfl⟩ := hcalls
  rcases hrun with hprocess | hmain
  · obtain ⟨hmode, hstate⟩ := h.process hprocess
    refine ⟨(hstate c hc).1, (hstate c hc).2, fun hs => ?_⟩
    rw [Starting, hmode] at hs
    rcases hs with hs | hs <;> cases hs
  · rw [(h.starting (h.main hmain)).1] at hc
    cases hc

/-! ## Runs -/

/-! ## Permissions by what a process does -/

/-- The action may report an error of the process that executes. -/
def RaisesError : Action → Prop
  | .fault _ _ _ => True
  | .call (.raiseApplicationError _ _ _) => True
  | _ => False

/-- The action may take a free mutex. -/
def TakesMutex : Action → Prop
  | .call (.acquireMutex _ _) | .call .lockPreemption => True
  | _ => False

/-- What a service knows of its caller `c` when it makes it wait in a list. -/
inductive MayWaitIn (s : Pcb) (e : Action) (c : Nat) : WaitList → Prop
  | checked (q : WaitList) (hq : ∀ i, q ≠ .mutex i) (h : s.cannotBlock c = false) : MayWaitIn s e c q
  | mutex (i : Nat) (he : TakesMutex e) (h : MustWaitForMutex s c i) : MayWaitIn s e c (.mutex i)
  | handler (i : Nat) (h : s.errorHandlerProcess = some c) : MayWaitIn s e c (.event i)
  | errors (he : RaisesError e) (hother : s.errorHandlerProcess ≠ some c)
      (hfull : s.errorListCb.nbErrors = s.errorListCb.maxErrors) : MayWaitIn s e c .errorProcesses

/-- The permissions an action needs, whichever branch of its service it takes. -/
structure MayAct (A : Permit) (s : Pcb) (e : Action) : Prop where
  giveBack : GivesMutexBack e → ∀ p, A.giveBack p := by intros; trivial
  acquire : TakesMutex e → MayAcquire A s := by intros; intro _ _ _; trivial
  block : ∀ service, e = .call service → ∀ c, s.processCurrent = some c → ∀ t, Noted s c.data t →
    ∀ q, MayWaitIn s e c.data q → ∀ timer, A.block t c.data q timer := by intros; trivial
  sleep : ∀ service, e = .call service → ∀ c, s.processCurrent = some c → s.cannotBlock c.data = false →
    ∀ k, k ≠ .suspendSelf → ∀ timer, A.sleep s c.data k timer := by intros; trivial
  quit : e = .call .stopSelf → ∀ c t, s.processCurrent = some c →
    (t.proc c.data).ownedMutexId = noMutexOwned ∨ Wakes s .stopSelf c.data → A.quit t c.data := by
      intros; trivial
  suspendSelf : ∀ timeOut, e = .call (.suspendSelf timeOut) → timeOut ≠ 0 → ∀ c,
    s.processCurrent = some c → s.cannotBlock c.data = false → A.sleep s c.data .suspendSelf
      (if timeOut = infiniteTimeValue then none else some (s.fromNow timeOut)) := by intros; trivial
  wake : ¬ GivesMutexBack e → ∀ service, e = .call service → ∀ p, Wakes s service p → A.wake p := by
    intros; trivial
  grant : GivesMutexBack e → ∀ service, e = .call service → ∀ p, Wakes s service p → A.grant p := by
    intros; trivial
  dispatch : e = .loop → A.dispatch := by intros; trivial
  tick : e = .loop → ¬ Starting s → s.krnl.ticks ≠ s.lastTick → MayTick A s := by
    intros; exact ⟨fun _ _ _ => trivial, fun _ _ _ => trivial, fun _ _ => trivial⟩
  suspend : ∀ processId node, e = .call (.suspend processId) →
    s.isProcessIdExisted processId = some node → (s.proc node.data).attributes.period = infiniteTimeValue →
      (s.proc node.data).isSuspended = false → (s.proc node.data).processState ≠ .dormant →
        A.suspend s node.data := by intros; trivial
  resume : ∀ processId node, e = .call (.resume processId) →
    s.isProcessIdExisted processId = some node → A.resume s node.data := by intros; trivial
  start : ∀ processId node, e = .call (.start processId) →
    s.isProcessIdExisted processId = some node → (s.proc node.data).processState = .dormant →
      A.start node.data false := by intros; trivial
  delayedStart : ∀ processId delayTime node, e = .call (.delayedStart processId delayTime) →
    s.isProcessIdExisted processId = some node → (s.proc node.data).processState = .dormant →
      A.start node.data true := by intros; trivial
  stop : ∀ processId node, e = .call (.stop processId) →
    s.isProcessIdExisted processId = some node → A.stop s node.data := by intros; trivial
  prioritize : ∀ processId priority node, e = .call (.setPriority processId priority) →
    s.isProcessIdExisted processId = some node → A.prioritize node.data := by intros; trivial
  requeue : ∀ service, e = .call service → ∀ p, A.requeue p := by intros; trivial
  port : ∀ row sampling, A.port row sampling := by intros; trivial
  create : ∀ period, A.create period := by intros; trivial
  error : ∀ errorCode a l, e = .fault errorCode a l → ∀ p, A.error p := by intros; trivial
  ignore : RaisesError e → ∀ c, s.processCurrent = some c → ∀ node ∈ s.processes,
    (s.proc node.data).processId = (s.proc c.data).processId → A.ignore s node.data
      ∧ A.ignore (s.modProc c.data fun x => { x with processState := .faulted }) node.data := by
    intros; exact ⟨trivial, trivial⟩
  mode : ∀ mode, A.mode mode := by intros; trivial

theorem MayAct.permits {e : Action} (h : MayAct A s e) : Permits A s e := by
  refine ⟨fun he p _ _ _ => h.giveBack he p, fun service hservice => ?_,
    fun service hservice p hp => ⟨fun he => h.grant he service hservice p hp,
      fun he => h.wake he service hservice p hp⟩, ?_,
    fun he hstarting => ⟨h.dispatch he, h.tick he hstarting⟩⟩
  · have hb := h.block service hservice
    have hs := h.sleep service hservice
    have hr := h.requeue service hservice
    subst hservice
    cases service with
    | setPriority processId priority =>
        exact fun node hnode _ => ⟨h.prioritize _ _ node rfl hnode, hr node.data⟩
    | stopSelf => exact h.quit rfl
    | suspendSelf timeOut => exact fun hzero _ c hc hcan _ => h.suspendSelf timeOut rfl hzero c hc hcan
    | timedWait delayTime =>
        exact ⟨fun _ c hc hcan _ => hs c hc hcan _ Context.noConfusion _, fun c _ _ => hr c.data⟩
    | periodicWait => exact fun c hc hcan _ => hs c hc hcan _ Context.noConfusion _
    | suspend processId => exact fun node hnode => h.suspend _ node rfl hnode
    | resume processId => exact fun node hnode => h.resume _ node rfl hnode
    | stop processId => exact fun node hnode _ => h.stop _ node rfl hnode
    | start processId => exact fun node hnode hdormant => h.start _ node rfl hnode hdormant
    | delayedStart processId delayTime => exact fun node hnode hdormant => h.delayedStart _ _ node rfl hnode hdormant
    | lockPreemption =>
        exact ⟨fun _ c i hc _ hmust => hb c hc s (Or.inl rfl) _ (.mutex i trivial hmust) _, h.acquire trivial⟩
    | acquireMutex mutexId timeOut =>
        exact ⟨fun _ c i hc _ hmust => hb c hc s (Or.inl rfl) _ (.mutex i trivial hmust) _, h.acquire trivial⟩
    | readBlackboard blackboardId timeOut =>
        exact fun _ _ _ _ _ c hc hcan t ht => hb c hc t ht _ (.checked _ (fun i hi => WaitList.noConfusion hi) hcan) _
    | sendBuffer bufferId messageAddr length timeOut =>
        exact fun _ _ _ _ _ c hc hcan t ht => hb c hc t ht _ (.checked _ (fun i hi => WaitList.noConfusion hi) hcan) _
    | receiveBuffer bufferId timeOut messageAddr =>
        exact fun _ _ _ _ _ c hc hcan t ht => hb c hc t ht _ (.checked _ (fun i hi => WaitList.noConfusion hi) hcan) _
    | waitSemaphore semaphoreId timeOut =>
        exact fun _ _ _ _ _ c hc hcan t ht => hb c hc t ht _ (.checked _ (fun i hi => WaitList.noConfusion hi) hcan) _
    | waitEvent eventId timeOut =>
        exact fun _ _ _ _ _ c hc hcan t ht => hb c hc t ht _ (.checked _ (fun i hi => WaitList.noConfusion hi) hcan) _
    | aperiodicWaitEvent eventId =>
        exact fun i c _ hc heh _ t ht => hb c hc t ht _ (.handler i heh) _
    | sendQueuingMessage queuingPortId messageAddr length timeOut =>
        exact fun _ _ _ _ _ _ _ _ c hc hcan t ht => hb c hc t ht _ (.checked _ (fun i hi => WaitList.noConfusion hi) hcan) _
    | receiveQueuingMessage queuingPortId timeOut =>
        exact fun _ _ _ _ _ _ _ _ c hc hcan t ht => hb c hc t ht _ (.checked _ (fun i hi => WaitList.noConfusion hi) hcan) _
    | createSamplingPort name maxMessageSize portDirection refreshPeriod =>
        exact fun row _ => h.port row true
    | createQueuingPort name maxMessageSize maxNbMessage portDirection discipline =>
        exact fun row _ => h.port row false
    | raiseApplicationError errorCode messageAddr length =>
        refine fun c hc => ⟨fun node hnode => ?_, fun hother hfull =>
          hb c hc s (Or.inl rfl) _ (.errors trivial hother hfull) _⟩
        obtain ⟨hmem, hid⟩ := isProcessIdExisted_eq_some hnode
        exact (h.ignore trivial c hc node hmem hid).1
    | createProcess attributes => exact h.create _
    | createErrorHandler stackSize => exact h.create _
    | setPartitionMode operatingMode => exact fun mode _ => h.mode mode
    | _ => trivial
  · rintro errorCode a l rfl c hc
    refine ⟨h.error _ _ _ rfl _, fun node hnode => ?_⟩
    obtain ⟨hmem, hid⟩ := isProcessIdExisted_eq_some hnode
    refine (h.ignore trivial c hc node hmem ?_).2
    rw [← hid]
    by_cases heq : node.data = c.data
    · rw [heq, modProc_proc_self]
    · rw [modProc_proc_of_ne heq]

theorem permits_all (s : Pcb) (e : Action) : Permits .all s e :=
  MayAct.permits {}

/-- A service call that is not refused makes its caller wait in list `q`. -/
def Blocks (s : Pcb) : Service → WaitList → Prop
  | .readBlackboard blackboardId timeOut, q => timeOut ≠ 0 ∧ ∃ i, s.findBlackboardById blackboardId = some i
      ∧ (s.res.blackboards i).emptyIndicator = .empty ∧ q = .blackboard i
  | .sendBuffer bufferId _ _ timeOut, q => timeOut ≠ 0 ∧ ∃ i, s.findBufferById bufferId = some i
      ∧ (s.res.buffers i).maxNbMessage ≤ (s.res.buffers i).nbMessage ∧ q = .bufferWriters i
  | .receiveBuffer bufferId timeOut _, q => timeOut ≠ 0 ∧ ∃ i, s.findBufferById bufferId = some i
      ∧ (s.res.buffers i).nbMessage ≤ 0 ∧ q = .bufferReaders i
  | .waitSemaphore semaphoreId timeOut, q => timeOut ≠ 0 ∧ ∃ i, s.findSemaphoreById semaphoreId = some i
      ∧ (s.res.semaphores i).currentValue ≤ 0 ∧ q = .semaphore i
  | .waitEvent eventId timeOut, q => timeOut ≠ 0 ∧ ∃ i, s.findEventById eventId = some i
      ∧ (s.res.events i).eventState = .down ∧ q = .event i
  | .aperiodicWaitEvent eventId, q => ∃ i, s.findEventById eventId = some i
      ∧ (s.res.events i).eventState = .down ∧ q = .event i
  | .sendQueuingMessage queuingPortId _ _ timeOut, q => timeOut ≠ 0 ∧ ∃ i,
      s.findQueuingPortById queuingPortId = some i ∧ q = .queuingPort i
  | .receiveQueuingMessage queuingPortId timeOut, q => timeOut ≠ 0 ∧ ∃ i,
      s.findQueuingPortById queuingPortId = some i ∧ q = .queuingPort i
  | .acquireMutex mutexId timeOut, q => timeOut ≠ 0 ∧ ∃ i, s.findMutexById mutexId = some i ∧ q = .mutex i
  | .lockPreemption, q => ∃ i, s.findMutexById preemptionLockMutex = some i ∧ q = .mutex i
  | .raiseApplicationError _ _ _, q => s.errorListCb.nbErrors = s.errorListCb.maxErrors ∧ q = .errorProcesses
  | _, _ => False

/-- Where the process that executes may wait is all an action is asked for. -/
def onlyBlocks (B : Pcb → Nat → WaitList → Option Int → Prop) : Permit := { Permit.all with block := B }

theorem permits_onlyBlocks {B : Pcb → Nat → WaitList → Option Int → Prop} {e : Action}
    (h : ∀ service, e = .call service → ∀ c, s.processCurrent = some c → ∀ t, Noted s c.data t →
      ∀ q, Blocks s service q → ∀ timer, B t c.data q timer) : Permits (onlyBlocks B) s e := by
  refine ⟨fun _ _ _ _ _ => trivial, fun service hservice => ?_, fun _ _ _ _ => ⟨fun _ => trivial, fun _ => trivial⟩,
    fun _ _ _ _ _ _ => ⟨trivial, fun _ _ => trivial⟩,
    fun _ _ => ⟨trivial, fun _ => ⟨fun _ _ _ => trivial, fun _ _ _ => trivial, fun _ _ => trivial⟩⟩⟩
  have hb := h service hservice
  subst hservice
  cases service with
  | readBlackboard blackboardId timeOut =>
      exact fun i hi hempty hne _ c hc _ t ht => hb c hc t ht _ ⟨hne, i, hi, hempty, rfl⟩ _
  | sendBuffer bufferId messageAddr length timeOut =>
      exact fun i hi hfull hne _ c hc _ t ht => hb c hc t ht _ ⟨hne, i, hi, hfull, rfl⟩ _
  | receiveBuffer bufferId timeOut messageAddr =>
      exact fun i hi hnone hne _ c hc _ t ht => hb c hc t ht _ ⟨hne, i, hi, hnone, rfl⟩ _
  | waitSemaphore semaphoreId timeOut =>
      exact fun i hi hzero hne _ c hc _ t ht => hb c hc t ht _ ⟨hne, i, hi, hzero, rfl⟩ _
  | waitEvent eventId timeOut =>
      exact fun i hi hdown hne _ c hc _ t ht => hb c hc t ht _ ⟨hne, i, hi, hdown, rfl⟩ _
  | aperiodicWaitEvent eventId =>
      exact fun i c hi hc _ hdown t ht => hb c hc t ht _ ⟨i, hi, hdown, rfl⟩ _
  | sendQueuingMessage queuingPortId messageAddr length timeOut =>
      exact fun i _ hi _ _ _ hne _ c hc _ t ht => hb c hc t ht _ ⟨hne, i, hi, rfl⟩ _
  | receiveQueuingMessage queuingPortId timeOut =>
      exact fun i _ hi _ _ _ hne _ c hc _ t ht => hb c hc t ht _ ⟨hne, i, hi, rfl⟩ _
  | acquireMutex mutexId timeOut =>
      exact ⟨fun hne c i hc hi _ => hb c hc s (Or.inl rfl) _ ⟨hne, i, hi, rfl⟩ _, fun _ _ _ => trivial⟩
  | lockPreemption =>
      exact ⟨fun _ c i hc hi _ => hb c hc s (Or.inl rfl) _ ⟨i, hi, rfl⟩ _, fun _ _ _ => trivial⟩
  | raiseApplicationError errorCode messageAddr length =>
      exact fun c hc => ⟨fun _ _ => trivial, fun _ hfull => hb c hc s (Or.inl rfl) _ ⟨hfull, rfl⟩ _⟩
  | setPriority _ _ => exact fun _ _ _ => ⟨trivial, trivial⟩
  | suspendSelf _ => exact fun _ _ _ _ _ _ => trivial
  | timedWait _ => exact ⟨fun _ _ _ _ _ => trivial, fun _ _ _ => trivial⟩
  | periodicWait => exact fun _ _ _ _ => trivial
  | suspend _ => exact fun _ _ _ _ _ => trivial
  | resume _ => exact fun _ _ => trivial
  | stop _ | start _ | delayedStart _ _ => exact fun _ _ _ => trivial
  | stopSelf => exact fun _ _ _ _ => trivial
  | createSamplingPort _ _ _ _ | createQueuingPort _ _ _ _ _ => exact fun _ _ => trivial
  | setPartitionMode _ => exact fun _ _ => trivial
  | _ => trivial

/-- What a caller that waits in a list has called, and what it waits for. -/
def Awaited (s : Pcb) (service : Service) : WaitList → Prop
  | .bufferReaders i => (s.res.buffers i).nbMessage ≤ 0 ∧ ∃ bufferId timeOut messageAddr,
      service = .receiveBuffer bufferId timeOut messageAddr
  | .event i => (s.res.events i).eventState = .down
  | .queuingPort _ =>
    (∃ queuingPortId messageAddr length timeOut, timeOut ≠ 0
      ∧ service = .sendQueuingMessage queuingPortId messageAddr length timeOut)
    ∨ ∃ queuingPortId timeOut, timeOut ≠ 0 ∧ service = .receiveQueuingMessage queuingPortId timeOut
  | .errorProcesses => s.errorListCb.nbErrors = s.errorListCb.maxErrors ∧ ∃ errorCode messageAddr length,
      service = .raiseApplicationError errorCode messageAddr length
  | _ => True

/-- Each list belongs to the services of one kind. -/
theorem Blocks.awaited {service : Service} {q : WaitList} (h : Blocks s service q) : Awaited s service q := by
  cases service with
  | readBlackboard | sendBuffer | waitSemaphore =>
      obtain ⟨-, i, -, -, rfl⟩ := h
      trivial
  | receiveBuffer bufferId timeOut messageAddr =>
      obtain ⟨-, i, -, hempty, rfl⟩ := h
      exact ⟨hempty, bufferId, timeOut, messageAddr, rfl⟩
  | waitEvent =>
      obtain ⟨-, i, -, hdown, rfl⟩ := h
      exact hdown
  | aperiodicWaitEvent =>
      obtain ⟨i, -, hdown, rfl⟩ := h
      exact hdown
  | sendQueuingMessage queuingPortId messageAddr length timeOut =>
      obtain ⟨hne, i, -, rfl⟩ := h
      exact Or.inl ⟨queuingPortId, messageAddr, length, timeOut, hne, rfl⟩
  | receiveQueuingMessage queuingPortId timeOut =>
      obtain ⟨hne, i, -, rfl⟩ := h
      exact Or.inr ⟨queuingPortId, timeOut, hne, rfl⟩
  | acquireMutex =>
      obtain ⟨-, i, -, rfl⟩ := h
      trivial
  | lockPreemption =>
      obtain ⟨i, -, rfl⟩ := h
      trivial
  | raiseApplicationError errorCode messageAddr length =>
      obtain ⟨hfull, rfl⟩ := h
      exact ⟨hfull, errorCode, messageAddr, length, rfl⟩
  | _ => exact h.elim

/-- A step of a sound partition leaves it sound. -/
theorem Sound.step {e : Action} (h : Sound s) (hstep : s.step e = some s') : Sound s' :=
  h.moves (step_moves h.running (permits_all s e) hstep)

/-- What every move keeps, with the invariant, all moves keep. -/
theorem Moves.keep {I : Pcb → Prop} (hmove : ∀ s s', Sound s → I s → Move A s s' → I s')
    (hm : Moves A s s') (hsound : Sound s) (hinv : I s) : Sound s' ∧ I s' := by
  induction hm with
  | refl => exact ⟨hsound, hinv⟩
  | tail _ hm ih => exact ⟨ih.1.move hm, hmove _ _ ih.1 ih.2 hm⟩

/-- It then holds after every run whose steps are permitted. -/
theorem keeps_of_moves {I : Pcb → Prop} {ok : Pcb → Action → Prop} {es : List Action}
    (hrun : Transition.GuardedRun step ok s es s')
    (hok : ∀ s e s', Sound s → I s → ok s e → s.step e = some s' → Permits A s e)
    (hmove : ∀ s s', Sound s → I s → Move A s s' → I s') (hsound : Sound s) (hinv : I s) :
    Sound s' ∧ I s' := by
  refine hrun.invariant (I := fun s => Sound s ∧ I s) ?_ ⟨hsound, hinv⟩
  intro s e s' h hs hstep
  exact Moves.keep hmove (step_moves h.1.running (hok s e s' h.1 h.2 hs hstep) hstep) h.1 h.2

theorem sound_partitionInit (period identifier : Int) (conf : PartitionConf) (maxErrors : Nat)
    (krnl : Krnl) (memory : Nat → Process) (lastTick : Nat) :
    Sound (partitionInit period identifier conf maxErrors krnl memory lastTick) :=
  ⟨fun hp => Control.noConfusion hp, fun hm => Control.noConfusion hm,
    fun _ => ⟨rfl, fun _ hn => absurd hn List.not_mem_nil⟩,
    fun _ _ hn => absurd hn List.not_mem_nil⟩

/-- `partition_OS` does nothing but create its mutex before it enters its loop. -/
theorem startPartitionOs_moves (s : Pcb) {A : Permit} : Moves A s s.startPartitionOs :=
  createMutex_moves "PREEMPTION_LOCK".toList maxPriorityValue 0

/-- A partition is sound when `partition_OS` enters its loop. -/
theorem sound_startPartitionOs (period identifier : Int) (conf : PartitionConf) (maxErrors : Nat)
    (krnl : Krnl) (memory : Nat → Process) (lastTick : Nat) :
    Sound (partitionInit period identifier conf maxErrors krnl memory lastTick).startPartitionOs :=
  (sound_partitionInit period identifier conf maxErrors krnl memory lastTick).moves (A := .all)
    (startPartitionOs_moves _)

/-- Two processes, of which process 0 executes. -/
def twoProcesses : List Action :=
  [.loop, .call (.createProcess (aperiodicProcess "A".toList 50)),
    .call (.createProcess (aperiodicProcess "B".toList 40)), .call (.start 1), .call (.start 2),
    .call (.setPartitionMode 3), .loop]

/-- Every step of `twoProcesses` meets a condition that its calls meet in every state, and a turn of the
    loop without a new tick. -/
theorem twoProcesses_guarded {ok : Pcb → Action → Prop}
    (hloop : ∀ t, Starting t ∨ t.krnl.ticks = t.lastTick → ok t .loop)
    (hcalls : ∀ e ∈ twoProcesses.tail.dropLast, ∀ t, ok t e) :
    ∃ s, Transition.GuardedRun step ok (defaultPartition 1) twoProcesses s
      ∧ Transition.run step (defaultPartition 1) twoProcesses = some s := by
  have hrun : ((defaultPartition 1).step .loop).bind (fun t => (Transition.run step t
      twoProcesses.tail.dropLast).bind fun u => (u.step .loop).map fun s =>
        (u.krnl.ticks, u.lastTick, s.ctl)) = some (0, 0, .process) := by decide
  obtain ⟨t, ht, hrun⟩ := Option.bind_eq_some_iff.mp hrun
  obtain ⟨u, hu, hrun⟩ := Option.bind_eq_some_iff.mp hrun
  obtain ⟨s, hs, hfields⟩ := Option.map_eq_some_iff.mp hrun
  simp only [Prod.mk.injEq] at hfields
  have hlast := hloop u (Or.inr (hfields.1.trans hfields.2.1.symm))
  have hmiddle := (Transition.GuardedRun.of_run (P := fun e => ∀ t, ok t e) hu hcalls).mono fun t e h => h t
  refine ⟨s, .cons (hloop _ (Or.inl (Or.inl rfl))) ht (hmiddle.append (.cons hlast hs (.nil s))), ?_⟩
  show Transition.run step _ (.loop :: (twoProcesses.tail.dropLast ++ [.loop])) = some s
  rw [Transition.run_cons, ht, Option.bind_some, Transition.run_append, hu, Option.bind_some, Transition.run_cons, hs]
  rfl

end Pcb

end UcxArinc
