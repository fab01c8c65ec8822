import UcxArinc.Proofs.ControlFlow

set_option autoImplicit false

/-! # Spatial isolation of the ports

A port is isolated when a row of the routing table that belongs to the partition gives it its channel.
The creation services check the row's sizes and direction but neither its partition nor its channel,
so the ports of a partition stay isolated exactly as long as it creates none from a row that is not
its own. -/

namespace UcxArinc

namespace Pcb

variable {A : Permit} {s s' : Pcb}

/-! ## Isolation -/

/-- A row of the partition's own that has a sampling channel, and its messages fit it. -/
def OwnSamplingRow (s : Pcb) (row : PortMapping) : Prop :=
  row.partitionId = s.status.identifier ∧ ∃ c, row.samplingChannel = some c
    ∧ row.messageSizeBytes ≤ (s.krnl.samplingChannels c).maxMessageSize

/-- A row of the partition's own that has a queuing channel, and its messages fit it. -/
def OwnQueuingRow (s : Pcb) (row : PortMapping) : Prop :=
  row.partitionId = s.status.identifier ∧ ∃ c, row.queuingChannel = some c
    ∧ row.messageSizeBytes ≤ ((s.krnl.queuingChannels c).maxMessageSize : Int)

/-- The port is what a row of the partition's own says. -/
def SamplingPortIsolated (s : Pcb) (port : SamplingPort) : Prop :=
  ∃ row ∈ s.krnl.systemPortTable, OwnSamplingRow s row ∧ SamplingPortOf row port

/-- The port is what a row of the partition's own says. -/
def QueuingPortIsolated (s : Pcb) (port : QueuingPort) : Prop :=
  ∃ row ∈ s.krnl.systemPortTable, OwnQueuingRow s row ∧ QueuingPortOf row port

/-- Every port created is isolated, the others have no channel, and a process resumes only on a port
    created. -/
structure PortsIsolated (s : Pcb) : Prop where
  sampling : ∀ i, i < s.res.samplingPortCount → SamplingPortIsolated s (s.res.samplingPorts i)
  queuing : ∀ i, i < s.res.queuingPortCount → QueuingPortIsolated s (s.res.queuingPorts i)
  unused : ∀ i, s.res.queuingPortCount ≤ i → (s.res.queuingPorts i).channel = none
  resumed : ∀ p i, portOf (s.proc p).context = some i → i < s.res.queuingPortCount

/-- A port is created only from a row of the partition's own: the condition on a call that passes all
    the checks of the service. -/
def CreatesOwnPorts (s : Pcb) : Action → Prop
  | .call (.createSamplingPort name maxMessageSize portDirection refreshPeriod) =>
    ∀ row, AcceptsSamplingPort s name maxMessageSize portDirection refreshPeriod row →
      OwnSamplingRow s row
  | .call (.createQueuingPort name maxMessageSize maxNbMessage portDirection queuingDiscipline) =>
    ∀ row, AcceptsQueuingPort s name maxMessageSize maxNbMessage portDirection queuingDiscipline row →
      OwnQueuingRow s row
  | _ => True

/-! ## The invariant -/

/-- Every row may be used that is the own row of a partition configured like `boot`. -/
def ownPorts (boot : Pcb) : Permit :=
  { Permit.all with
    port := fun row sampling =>
      if sampling then OwnSamplingRow boot row else OwnQueuingRow boot row }

theorem OwnSamplingRow.congr {row : PortMapping} (hconf : SameConf s s') :
    OwnSamplingRow s' row ↔ OwnSamplingRow s row := by
  simp only [OwnSamplingRow, hconf.identifier, hconf.samplingSize]

theorem OwnQueuingRow.congr {row : PortMapping} (hconf : SameConf s s') :
    OwnQueuingRow s' row ↔ OwnQueuingRow s row := by
  simp only [OwnQueuingRow, hconf.identifier, hconf.queuingSize]

theorem SamplingPortIsolated.congr {port : SamplingPort} (hconf : SameConf s s') :
    SamplingPortIsolated s' port ↔ SamplingPortIsolated s port := by
  simp only [SamplingPortIsolated, hconf.systemPortTable, OwnSamplingRow.congr hconf]

theorem QueuingPortIsolated.congr {port : QueuingPort} (hconf : SameConf s s') :
    QueuingPortIsolated s' port ↔ QueuingPortIsolated s port := by
  simp only [QueuingPortIsolated, hconf.systemPortTable, OwnQueuingRow.congr hconf]

/-- The same ports under the same configuration, resumed by the same processes. -/
theorem PortsIsolated.congr (h : PortsIsolated s) (hconf : SameConf s s') (hports : SamePorts s s')
    (hcontext : ∀ p i, portOf (s'.proc p).context = some i →
      portOf (s.proc p).context = some i ∨ i < s.res.queuingPortCount) : PortsIsolated s' := by
  refine ⟨fun i hi => ?_, fun i hi => ?_, fun i hi => ?_, fun p i hp => ?_⟩
  · rw [hports.samplingPortCount] at hi
    obtain ⟨v, hv⟩ := hports.samplingPorts i
    obtain ⟨row, hrow, hown, hname, hsize, hdirection, hchannel⟩ := h.sampling i hi
    rw [hv, SamplingPortIsolated.congr hconf]
    exact ⟨row, hrow, hown, hname, hsize, hdirection, hchannel⟩
  · rw [hports.queuingPortCount] at hi
    rw [hports.queuingPorts]
    exact (QueuingPortIsolated.congr hconf).mpr (h.queuing i hi)
  · rw [hports.queuingPortCount] at hi
    rw [hports.queuingPorts]
    exact h.unused i hi
  · rw [hports.queuingPortCount]
    rcases hcontext p i hp with hsame | hlt
    · exact h.resumed p i hsame
    · exact hlt

theorem visited_context {f : Process → Process} (hf : ∀ x, (f x).context = x.context)
    (nodes : List Node) (proc : Nat → Process) (p : Nat) :
    (visited nodes f proc p).context = (proc p).context :=
  visited_rel (R := fun x y => y.context = x.context) (fun _ => rfl)
    (fun _ _ _ h h' => h'.trans h) hf nodes proc p

theorem checkAndRelease_context (uptime : Nat) (x : Process) :
    (checkAndReleasePeriodicWaitingProcesses uptime x).context = x.context := by
  unfold checkAndReleasePeriodicWaitingProcesses
  split_ifs
  all_goals rfl

theorem checkTimeouts_context (uptime : Nat) (x : Process) :
    (checkTimeouts uptime x).context = x.context := by
  unfold checkTimeouts
  split_ifs
  all_goals rfl

theorem startProcess_context (uptime : Nat) (point : Int) (x : Process) :
    (startProcess uptime point x).context = x.context := by
  obtain ⟨release, deadline, heq⟩ := startProcess_eq uptime point x
  rw [heq]

/-- A process resumes on a port only where it waited for it. -/
theorem Move.portOf_context (hm : Move A s s') {p i : Nat}
    (hp : portOf (s'.proc p).context = some i) :
    portOf (s.proc p).context = some i ∨ i < s.res.queuingPortCount := by
  have hmod : ∀ {p' : Nat} {f : Process → Process},
      portOf ((s.modProc p' f).proc p).context = some i →
      (portOf (f (s.proc p')).context = some i →
        portOf (s.proc p').context = some i ∨ i < s.res.queuingPortCount) →
      portOf (s.proc p).context = some i ∨ i < s.res.queuingPortCount := by
    intro p' f h hf
    rw [modProc_proc] at h
    split at h
    · next heq =>
        rw [heq]
        exact hf h
    · exact Or.inl h
  cases hm with
  | frame hf =>
      rw [hf.proc] at hp
      exact Or.inl hp
  | touch p' f hf =>
      refine hmod hp fun h => ?_
      rw [(hf _).context] at h
      exact Or.inl h
  | moveNode node p' front follow hmovable =>
      rw [(moveNode_rest s node p' front follow).2.1] at hp
      exact Or.inl hp
  | block p' q linked discipline timer k hcalls hkind hmutex hk hA =>
      rw [blocked_eq] at hp
      exact hmod (f := fun x => { blockedRecord q linked timer x with context := k }) hp
        fun h => Or.inr (hk i h)
  | blockOnErrors p' error k hcalls hk hA =>
      rw [blockedOnErrors_eq] at hp
      refine hmod (f := fun x =>
        { x with processState := .waiting, pendingError := error, context := k }) hp fun h => ?_
      rw [hk] at h
      cases h
  | setPriority p' priority hfree hmax =>
      exact hmod (f := fun x => { x with currentPriority := priority }) hp Or.inl
  | savePriority index p' priority hidx => exact Or.inl hp
  | sleep p' f k timer hcalls hk hf hA =>
      refine hmod (f := f) hp fun h => ?_
      rw [(hf _).context, hk] at h
      cases h
  | yield p' k hcalls hk =>
      refine hmod (f := fun x => { x with context := k }) hp fun h => ?_
      have hk := portOf_of_plain hk
      rw [show portOf k = some i from h] at hk
      cases hk
  | wake q cancel p' hwake hq =>
      obtain ⟨rest, -, rfl⟩ := wakeFirst_eq_some hwake
      exact hmod (f := wakeProcess q.kind cancel) hp Or.inl
  | handOver index mutexId hhand hidx hstate =>
      rcases handMutexOver_proc hhand with hproc | ⟨woken, rest, -, -, hproc⟩
      · rw [hproc] at hp
        exact Or.inl hp
      · rw [hproc] at hp
        split at hp
        · next heq =>
            rw [heq]
            exact Or.inl hp
        · exact Or.inl hp
  | acquire index p' node mutexId hcalls hidx hnode hdata hstate hfree =>
      rw [(moveNode_rest _ node p' true true).2.1, giveMutex_proc] at hp
      split at hp
      · next heq =>
          rw [heq]
          exact Or.inl hp
      · exact Or.inl hp
  | relock index p' mutexId hcalls hidx hstate hmax => exact Or.inl hp
  | unlock index p' mutexId hcalls hidx hown hlock => exact Or.inl hp
  | takeBack index p' node follow mutexId hrun hidx hown hmovable hA =>
      rw [takenBack_eq, (moveNode_rest _ node p' true follow).2.1] at hp
      exact hmod (f := fun x => { x with
        ownedMutexId := noMutexOwned
        currentPriority := (s.res.mutexes index).savedOwnerPriority }) hp Or.inl
  | suspend node hnode hother hmutex howns hstate hA => exact hmod hp Or.inl
  | resume node hnode hstate hwas => exact hmod hp Or.inl
  | stop node hnode hother hA =>
      obtain ⟨w, l, c, heq⟩ := stopped_eq s node.data
      rw [heq] at hp
      exact hmod (f := fun x => { makeDormant x with
        waiting := w
        deadlineTime := infiniteTimeValue }) hp Or.inl
  | stopSelf p' hcalls => exact hmod (f := makeDormant) hp Or.inl
  | start node delayed f hnode hstate hf hA =>
      refine hmod hp fun h => ?_
      rw [hf.context] at h
      cases h
  | selfReady p' hcalls => exact hmod hp Or.inl
  | timerOff p' hcalls => exact hmod hp Or.inl
  | fault p' hcalls hA => exact hmod hp Or.inl
  | ignore node c hnode hc hid hA => exact hmod hp Or.inl
  | readyHandler p' hp' => exact hmod hp fun h => nomatch h
  | initHandler p' hp' => exact hmod hp fun h => nomatch h
  | schedule hctl hmode =>
      obtain ⟨proc, current, heq, hproc, -⟩ := processSchedule_eq s
      obtain ⟨st, hst, -⟩ := hproc p
      rw [heq] at hp
      dsimp only at hp
      rw [hst] at hp
      exact Or.inl hp
  | release hctl =>
      rw [forEachProcess_eq] at hp
      rw [visited_context (checkAndRelease_context _)] at hp
      exact Or.inl hp
  | timeOuts hctl =>
      rw [forEachProcess_eq] at hp
      rw [visited_context (checkTimeouts_context _)] at hp
      exact Or.inl hp
  | run node hnode hlinked hstate hmode => exact Or.inl hp
  | main hmode => exact Or.inl hp
  | toOs => exact Or.inl hp
  | crash => exact Or.inl hp
  | spawn y node isErrorHandler hrun hmode hnode hfirst hy hA =>
      refine hmod (f := fun _ => y) hp fun h => ?_
      rw [hy.context] at h
      exact Or.inl h
  | freshLists k j hmode =>
      obtain ⟨lists, counts, heq⟩ := freshLists_eq s (listsOf k j)
      rw [heq] at hp
      exact Or.inl hp
  | newMutex x hmode hid hstate hlock => exact Or.inl hp
  | newSamplingPort row port hmode hrow hport hA => exact Or.inl hp
  | newQueuingPort row port hmode hrow hport hA => exact Or.inl hp
  | toIdle hA => exact Or.inl hp
  | toStart mode hmode hA => exact Or.inl hp
  | toNormal point hrun hmode hA =>
      rw [forEachProcess_eq] at hp
      rw [visited_context (startProcess_context _ _)] at hp
      exact Or.inl hp

/-- The same ports in the same memory. -/
theorem sameSetup (hconf : s'.conf = s.conf) (hid : s'.status.identifier = s.status.identifier)
    (hkrnl : s'.krnl = s.krnl) (hres : s'.res.samplingPorts = s.res.samplingPorts
      ∧ s'.res.samplingPortCount = s.res.samplingPortCount
      ∧ s'.res.queuingPorts = s.res.queuingPorts
      ∧ s'.res.queuingPortCount = s.res.queuingPortCount) : SameConf s s' ∧ SamePorts s s' :=
  ⟨⟨hconf, hid, by rw [hkrnl], fun _ => by rw [hkrnl], fun _ => by rw [hkrnl]⟩,
    ⟨hres.2.1, hres.2.2.2, fun i => ⟨(s.res.samplingPorts i).lastMsgValidity, by rw [hres.1]⟩,
      hres.2.2.1⟩⟩

/-- A move leaves the configuration and the ports alone, or creates a port. -/
theorem Move.setup (hm : Move A s s') :
    (SameConf s s' ∧ SamePorts s s')
      ∨ (∃ row port, row ∈ s.krnl.systemPortTable ∧ A.port row true
        ∧ SamplingPortOf row port
        ∧ s' = { s with res := { s.res with
            samplingPorts := Function.update s.res.samplingPorts s.res.samplingPortCount port
            samplingPortCount := s.res.samplingPortCount + 1 } })
      ∨ ∃ row port, row ∈ s.krnl.systemPortTable ∧ A.port row false
        ∧ QueuingPortOf row port
        ∧ s' = { s with res := { s.res with
            queuingPorts := Function.update s.res.queuingPorts s.res.queuingPortCount port
            queuingPortCount := s.res.queuingPortCount + 1 } } := by
  cases hm with
  | frame hf => exact Or.inl ⟨hf.conf, hf.ports⟩
  | newSamplingPort row port hmode hrow hport hA =>
      exact Or.inr (Or.inl ⟨row, port, hrow, hA, hport, rfl⟩)
  | newQueuingPort row port hmode hrow hport hA =>
      exact Or.inr (Or.inr ⟨row, port, hrow, hA, hport, rfl⟩)
  | moveNode node p front follow hmovable =>
      cases front <;> cases follow <;> exact Or.inl (sameSetup rfl rfl rfl ⟨rfl, rfl, rfl, rfl⟩)
  | block p q linked discipline timer k hcalls hkind hmutex hk hA =>
      rw [blocked_eq]
      exact Or.inl (sameSetup rfl rfl rfl ⟨rfl, rfl, rfl, rfl⟩)
  | wake q cancel p hwake hq =>
      obtain ⟨rest, -, rfl⟩ := wakeFirst_eq_some hwake
      exact Or.inl (sameSetup rfl rfl rfl ⟨rfl, rfl, rfl, rfl⟩)
  | handOver index mutexId hhand hidx hstate =>
      rcases handMutexOver_eq_some hhand with ⟨-, rfl⟩ | ⟨woken, t, node, hwake, -, rfl⟩
      · exact Or.inl (sameSetup rfl rfl rfl ⟨rfl, rfl, rfl, rfl⟩)
      · obtain ⟨rest, -, rfl⟩ := wakeFirst_eq_some hwake
        exact Or.inl (sameSetup rfl rfl rfl ⟨rfl, rfl, rfl, rfl⟩)
  | takeBack index p node follow mutexId hrun hidx hown hmovable hA =>
      cases follow <;> exact Or.inl (sameSetup rfl rfl rfl ⟨rfl, rfl, rfl, rfl⟩)
  | stop node hnode hother hA =>
      obtain ⟨w, l, c, heq⟩ := stopped_eq s node.data
      rw [heq]
      exact Or.inl (sameSetup rfl rfl rfl ⟨rfl, rfl, rfl, rfl⟩)
  | schedule hctl hmode =>
      obtain ⟨proc, current, heq, -, -⟩ := processSchedule_eq s
      rw [heq]
      exact Or.inl (sameSetup rfl rfl rfl ⟨rfl, rfl, rfl, rfl⟩)
  | release hctl =>
      rw [forEachProcess_eq]
      exact Or.inl (sameSetup rfl rfl rfl ⟨rfl, rfl, rfl, rfl⟩)
  | timeOuts hctl =>
      rw [forEachProcess_eq]
      exact Or.inl (sameSetup rfl rfl rfl ⟨rfl, rfl, rfl, rfl⟩)
  | freshLists k i hmode =>
      obtain ⟨lists, counts, heq⟩ := freshLists_eq s (listsOf k i)
      rw [heq]
      exact Or.inl (sameSetup rfl rfl rfl ⟨rfl, rfl, rfl, rfl⟩)
  | toNormal point hrun hmode hA =>
      rw [forEachProcess_eq]
      exact Or.inl (sameSetup rfl rfl rfl ⟨rfl, rfl, rfl, rfl⟩)
  | _ => exact Or.inl (sameSetup rfl rfl rfl ⟨rfl, rfl, rfl, rfl⟩)

/-- The configuration never changes. -/
theorem moves_conf (hm : Moves A s s') : s'.conf = s.conf := by
  induction hm with
  | refl => rfl
  | tail _ hm ih =>
      rcases hm.setup with ⟨hsame, -⟩ | ⟨_, _, -, -, -, rfl⟩ | ⟨_, _, -, -, -, rfl⟩
      · exact hsame.conf.trans ih
      · exact ih
      · exact ih

theorem SameConf.trans {s'' : Pcb} (h : SameConf s s') (h' : SameConf s' s'') : SameConf s s'' :=
  ⟨h'.conf.trans h.conf, h'.identifier.trans h.identifier,
    h'.systemPortTable.trans h.systemPortTable,
    fun c => (h'.samplingSize c).trans (h.samplingSize c),
    fun c => (h'.queuingSize c).trans (h.queuingSize c)⟩

theorem PortsIsolated.newSamplingPort (h : PortsIsolated s) {row : PortMapping} {port : SamplingPort}
    (hrow : row ∈ s.krnl.systemPortTable) (hown : OwnSamplingRow s row)
    (hport : SamplingPortOf row port) :
    PortsIsolated { s with res := { s.res with
      samplingPorts := Function.update s.res.samplingPorts s.res.samplingPortCount port
      samplingPortCount := s.res.samplingPortCount + 1 } } := by
  refine ⟨fun i hi => ?_, h.queuing, h.unused, h.resumed⟩
  rcases Nat.lt_succ_iff_lt_or_eq.mp hi with hlt | rfl
  · dsimp only
    rw [Function.update_of_ne hlt.ne]
    exact h.sampling i hlt
  · dsimp only
    rw [Function.update_self]
    exact ⟨row, hrow, hown, hport⟩

theorem PortsIsolated.newQueuingPort (h : PortsIsolated s) {row : PortMapping} {port : QueuingPort}
    (hrow : row ∈ s.krnl.systemPortTable) (hown : OwnQueuingRow s row)
    (hport : QueuingPortOf row port) :
    PortsIsolated { s with res := { s.res with
      queuingPorts := Function.update s.res.queuingPorts s.res.queuingPortCount port
      queuingPortCount := s.res.queuingPortCount + 1 } } := by
  refine ⟨h.sampling, fun i hi => ?_, fun i hi => ?_, fun p i hp => ?_⟩
  · rcases Nat.lt_succ_iff_lt_or_eq.mp hi with hlt | rfl
    · dsimp only
      rw [Function.update_of_ne hlt.ne]
      exact h.queuing i hlt
    · dsimp only
      rw [Function.update_self]
      exact ⟨row, hrow, hown, hport⟩
  · have hlt : s.res.queuingPortCount < i := hi
    dsimp only
    rw [Function.update_of_ne hlt.ne']
    exact h.unused i hlt.le
  · exact (h.resumed p i hp).trans (Nat.lt_succ_self _)

/-- A move creates ports only from own rows. -/
theorem PortsIsolated.move {boot : Pcb} (hconf : SameConf boot s) (h : PortsIsolated s)
    (hm : Move (ownPorts boot) s s') : SameConf boot s' ∧ PortsIsolated s' := by
  rcases hm.setup with ⟨hsame, hports⟩ | ⟨row, port, hrow, hA, hport, rfl⟩
    | ⟨row, port, hrow, hA, hport, rfl⟩
  · exact ⟨hconf.trans hsame, h.congr hsame hports fun p i => hm.portOf_context⟩
  · exact ⟨hconf.trans ⟨rfl, rfl, rfl, fun _ => rfl, fun _ => rfl⟩,
      h.newSamplingPort hrow ((OwnSamplingRow.congr hconf).mpr hA) hport⟩
  · exact ⟨hconf.trans ⟨rfl, rfl, rfl, fun _ => rfl, fun _ => rfl⟩,
      h.newQueuingPort hrow ((OwnQueuingRow.congr hconf).mpr hA) hport⟩

/-- Only the creation of ports needs a permission. -/
theorem permits_ownPorts {boot : Pcb} (hconf : SameConf boot s) {e : Action}
    (he : CreatesOwnPorts s e) : Permits (ownPorts boot) s e := by
  have hall := permits_all s e
  refine ⟨hall.giveBack, fun service hservice => ?_, hall.wake, hall.fault, fun _ _ =>
    ⟨trivial, fun _ => ⟨fun _ _ _ => trivial, fun _ _ _ => trivial, fun _ _ => trivial⟩⟩⟩
  have hcall := hall.call service hservice
  subst hservice
  cases service with
  | createSamplingPort name maxMessageSize portDirection refreshPeriod =>
      exact fun row haccept => (OwnSamplingRow.congr hconf).mp (he row haccept)
  | createQueuingPort name maxMessageSize maxNbMessage portDirection queuingDiscipline =>
      exact fun row haccept => (OwnQueuingRow.congr hconf).mp (he row haccept)
  | _ => exact hcall

/-- The invariant of a run that creates only own ports. -/
theorem portsIsolated_of_run {boot s : Pcb} {es : List Action} (hsound : Sound boot)
    (hboot : PortsIsolated boot)
    (hrun : Transition.GuardedRun step CreatesOwnPorts boot es s) :
    Sound s ∧ SameConf boot s ∧ PortsIsolated s := by
  refine keeps_of_moves (A := ownPorts boot)
    (I := fun s => SameConf boot s ∧ PortsIsolated s) hrun ?_ ?_ hsound ⟨.refl boot, hboot⟩
  · exact fun s e _ _ hinv he _ => permits_ownPorts hinv.1 he
  · exact fun s s' _ hinv hm => hinv.2.move hinv.1 hm

end Pcb

end UcxArinc
