import UcxArinc.Proofs.PortWaits
import UcxArinc.Proofs.Stores

set_option autoImplicit false

/-! # Waking at the queuing ports

What one call of `check_available_resources_on_partition_port` does to each port. The test for a source port
compares the size of its messages with the direction, so it never succeeds, and the loop ends at the first port
without a channel: the call serves every port exactly where neither matters. -/

namespace UcxArinc

namespace Pcb

variable {s s' : Pcb} {p i : Nat}

/-! ## Serving a port -/

/-- Port `i` has what its waiters wait for: a free slot in its channel, or a message. -/
def PortAvailable (s : Pcb) (i : Nat) : Prop :=
  ∃ c, (s.res.queuingPorts i).channel = some c
    ∧ match (s.res.queuingPorts i).portDirection with
      | .source => (s.krnl.queuingChannels c).currentNbMessages < (s.krnl.queuingChannels c).maxNbMessages
      | .destination => 0 < (s.krnl.queuingChannels c).currentNbMessages

/-- Somebody waits at port `i`, and the port is available. -/
def ToServe (s : Pcb) (i : Nat) : Prop := PortAvailable s i ∧ s.waitingProcesses (.queuingPort i) ≠ []

/-- The first waiter of port `i` has been woken and removed, and nobody else. -/
structure PortServed (s s' : Pcb) (i : Nat) : Prop where
  removed : s'.waitingProcesses (.queuingPort i) = (s.waitingProcesses (.queuingPort i)).tail
  count : s'.waitingCount (.queuingPort, i) = s.waitingCount (.queuingPort, i) - 1
  woken : ∀ p, (s.waitingProcesses (.queuingPort i)).head? = some p →
    s'.proc p = wakeProcess (some .queuingPort) false (s.proc p)

/-- Port `i` is unchanged. -/
structure PortUnchanged (s s' : Pcb) (i : Nat) : Prop where
  list : s'.waitingProcesses (.queuingPort i) = s.waitingProcesses (.queuingPort i)
  count : s'.waitingCount (.queuingPort, i) = s.waitingCount (.queuingPort, i)

/-- Every port created is served if somebody waits for what it has, and is unchanged otherwise; a process that
    is not woken is unchanged. -/
structure ServesPorts (s s' : Pcb) : Prop where
  served : ∀ i < s.res.queuingPortCount, ToServe s i → PortServed s s' i
  unchanged : ∀ i < s.res.queuingPortCount, ¬ ToServe s i → PortUnchanged s s' i
  others : ∀ p, (∀ i < s.res.queuingPortCount, ToServe s i →
    (s.waitingProcesses (.queuingPort i)).head? ≠ some p) → s'.proc p = s.proc p

/-! ## One port -/

/-- Port `i` is a destination with a message in its channel, and somebody waits for it. -/
def HasReceiver (s : Pcb) (i : Nat) : Prop :=
  (∃ c, (s.res.queuingPorts i).channel = some c ∧ 0 < (s.krnl.queuingChannels c).currentNbMessages
    ∧ (s.res.queuingPorts i).portDirection = .destination) ∧ s.waitingProcesses (.queuingPort i) ≠ []

theorem ToServe.hasReceiver (h : ToServe s i) (hdirection : (s.res.queuingPorts i).portDirection = .destination) :
    HasReceiver s i := by
  obtain ⟨⟨c, hc, hmessage⟩, hwaiters⟩ := h
  rw [hdirection] at hmessage
  exact ⟨⟨c, hc, hmessage, hdirection⟩, hwaiters⟩

theorem HasReceiver.toServe (h : HasReceiver s i) : ToServe s i := by
  obtain ⟨⟨c, hc, hmessage, hdirection⟩, hwaiters⟩ := h
  refine ⟨⟨c, hc, ?_⟩, hwaiters⟩
  rw [hdirection]
  exact hmessage

/-- For a port whose messages have a size, only the test for messages can succeed. -/
theorem checkPort_of_sized {c : Nat} (hc : (s.res.queuingPorts i).channel = some c)
    (hsize : 0 < (s.res.queuingPorts i).maxMessageSize) :
    (HasReceiver s i ∧ s.checkPort i c = s.wokenFirst (.queuingPort i))
      ∨ ¬ HasReceiver s i ∧ s.checkPort i c = s := by
  have hnot : ¬ ((s.krnl.queuingChannels c).currentNbMessages < (s.krnl.queuingChannels c).maxNbMessages
      ∧ (s.res.queuingPorts i).maxMessageSize = 0) := fun h => absurd h.2 hsize.ne'
  rw [checkPort_eq, if_neg hnot]
  by_cases hmessage : 0 < (s.krnl.queuingChannels c).currentNbMessages
      ∧ (s.res.queuingPorts i).portDirection = .destination
  · rw [if_pos hmessage]
    rcases wokenFirst_cases s (.queuingPort i) with ⟨hnone, hsame⟩ | ⟨first, hwake⟩
    · exact Or.inr ⟨fun h => h.2 hnone, hsame⟩
    · obtain ⟨rest, hlist, -⟩ := wakeFirst_eq_some hwake
      exact Or.inl ⟨⟨⟨c, hc, hmessage⟩, by rw [hlist]; exact List.cons_ne_nil _ _⟩, rfl⟩
  · rw [if_neg hmessage]
    refine Or.inr ⟨?_, rfl⟩
    rintro ⟨⟨c', hc', hhas⟩, -⟩
    obtain rfl := Option.some.inj (hc.symm.trans hc')
    exact hmessage hhas

theorem wokenFirst_served (hwaiters : s.waitingProcesses (.queuingPort i) ≠ []) :
    PortServed s (s.wokenFirst (.queuingPort i)) i
      ∧ (∀ j ≠ i, PortUnchanged s (s.wokenFirst (.queuingPort i)) j)
      ∧ ∀ p, (s.waitingProcesses (.queuingPort i)).head? ≠ some p →
        (s.wokenFirst (.queuingPort i)).proc p = s.proc p := by
  obtain ⟨first, hwake⟩ := (wokenFirst_cases s (.queuingPort i)).resolve_left fun h => hwaiters h.1
  have hproc := wakeFirst_proc hwake
  obtain ⟨rest, hlist, heq⟩ := wakeFirst_eq_some hwake
  have hlists : (s.wokenFirst (.queuingPort i)).waitingProcesses
      = Function.update s.waitingProcesses (.queuingPort i) rest := by rw [heq]
  have hcounts : (s.wokenFirst (.queuingPort i)).waitingCount = s.countAfter (.queuingPort i) (-1) := by rw [heq]
  refine ⟨⟨?_, ?_, fun p hp => ?_⟩, fun j hj => ⟨?_, ?_⟩, fun p hp => ?_⟩
  · rw [hlists, Function.update_self, hlist]
    rfl
  · rw [hcounts]
    exact Function.update_self _ _ _
  · rw [hlist] at hp
    obtain rfl := Option.some.inj hp
    rw [hproc, if_pos rfl]
    rfl
  · rw [hlists, Function.update_of_ne fun heq => hj (WaitList.queuingPort.inj heq)]
  · rw [hcounts]
    exact countAfter_of_ne (q := .queuingPort i) (Or.inr hj.symm) _
  · rw [hproc, if_neg]
    rintro rfl
    rw [hlist] at hp
    exact hp rfl

/-! ## The loop -/

/-- The loop that starts at port `index` with `n` ports to go wakes the first waiter of port `i`. -/
def LoopServes (s : Pcb) (index n i : Nat) : Prop :=
  index ≤ i ∧ i < index + n ∧ (∀ j, index ≤ j → j ≤ i → (s.res.queuingPorts j).channel ≠ none) ∧ HasReceiver s i

/-- What the loop leaves behind. -/
structure LoopDone (s s' : Pcb) (index n : Nat) : Prop where
  served : ∀ i, LoopServes s index n i → PortServed s s' i
  unchanged : ∀ i, ¬ LoopServes s index n i → PortUnchanged s s' i
  others : ∀ p, (∀ i, LoopServes s index n i → (s.waitingProcesses (.queuingPort i)).head? ≠ some p) →
    s'.proc p = s.proc p

theorem LoopDone.of_none {index n : Nat} (h : ∀ i, ¬ LoopServes s index n i) : LoopDone s s index n :=
  ⟨fun i hi => absurd hi (h i), fun _ _ => ⟨rfl, rfl⟩, fun _ _ => rfl⟩

/-- Waking a process twice is waking it once. -/
theorem wokenTwice (x : Process) : wakeProcess (some .queuingPort) false (wakeProcess (some .queuingPort) false x)
    = wakeProcess (some .queuingPort) false x := by
  simp [wakeProcess]

/-- A process the loop finds woken is so afterwards. -/
theorem LoopDone.woken {x : Process} {index n : Nat} (h : LoopDone s s' index n)
    (hp : s.proc p = wakeProcess (some .queuingPort) false x) :
    s'.proc p = wakeProcess (some .queuingPort) false x := by
  by_cases hfirst : ∃ i, LoopServes s index n i ∧ (s.waitingProcesses (.queuingPort i)).head? = some p
  · obtain ⟨i, hi, hhead⟩ := hfirst
    rw [(h.served i hi).woken p hhead, hp, wokenTwice]
  · rw [h.others p fun i hi hhead => hfirst ⟨i, hi, hhead⟩, hp]

/-- The loop, one port later: `t` is the state after the first port. -/
theorem LoopDone.cons {t : Pcb} {index n : Nat} (hres : t.res = s.res) (hkrnl : t.krnl = s.krnl)
    (hchannel : (s.res.queuingPorts index).channel ≠ none)
    (hfirst : HasReceiver s index → PortServed s t index)
    (hnot : ¬ HasReceiver s index → PortUnchanged s t index)
    (hlater : ∀ i ≠ index, PortUnchanged s t i)
    (hothers : ∀ p, (HasReceiver s index → (s.waitingProcesses (.queuingPort index)).head? ≠ some p) →
      t.proc p = s.proc p) (h : LoopDone t s' (index + 1) n) : LoopDone s s' index (n + 1) := by
  have hserves : ∀ i ≠ index, (LoopServes t (index + 1) n i ↔ LoopServes s index (n + 1) i) := by
    intro i hi
    unfold LoopServes HasReceiver
    rw [hres, hkrnl, (hlater i hi).list]
    constructor
    · rintro ⟨hfrom, hto, hchannels, hhas⟩
      refine ⟨by omega, by omega, fun j hj hj' => ?_, hhas⟩
      rcases Nat.eq_or_lt_of_le hj with rfl | hlt
      · exact hchannel
      · exact hchannels j hlt hj'
    · rintro ⟨hfrom, hto, hchannels, hhas⟩
      exact ⟨by omega, by omega, fun j hj hj' => hchannels j (by omega) hj', hhas⟩
  have hpast : ¬ LoopServes t (index + 1) n index := fun hs => absurd hs.1 (by omega)
  have hhere : LoopServes s index (n + 1) index ↔ HasReceiver s index :=
    ⟨fun hs => hs.2.2.2, fun hs => ⟨le_rfl, by omega, fun j hj hj' => by rwa [le_antisymm hj' hj], hs⟩⟩
  have hkept := h.unchanged index hpast
  refine ⟨fun i hi => ?_, fun i hi => ?_, fun p hp => ?_⟩
  · by_cases hindex : i = index
    · subst hindex
      have hserved := hfirst (hhere.mp hi)
      exact ⟨hkept.list.trans hserved.removed, hkept.count.trans hserved.count,
        fun p hp => h.woken (hserved.woken p hp)⟩
    · have hsame := hlater i hindex
      have hserved := h.served i ((hserves i hindex).mpr hi)
      refine ⟨by rw [hserved.removed, hsame.list], by rw [hserved.count, hsame.count], fun p hp => ?_⟩
      -- the process may have been the first waiter of the port before too
      by_cases hbefore : HasReceiver s index ∧ (s.waitingProcesses (.queuingPort index)).head? = some p
      · exact h.woken ((hfirst hbefore.1).woken p hbefore.2)
      · rw [hserved.woken p (by rw [hsame.list]; exact hp), hothers p fun hhas hhead => hbefore ⟨hhas, hhead⟩]
  · by_cases hindex : i = index
    · subst hindex
      have hsame := hnot fun hhas => hi (hhere.mpr hhas)
      exact ⟨hkept.list.trans hsame.list, hkept.count.trans hsame.count⟩
    · have hsame := hlater i hindex
      have hkept := h.unchanged i fun hs => hi ((hserves i hindex).mp hs)
      exact ⟨hkept.list.trans hsame.list, hkept.count.trans hsame.count⟩
  · rw [h.others p fun i hi hhead => ?_, hothers p fun hhas => hp index (hhere.mpr hhas)]
    by_cases hindex : i = index
    · exact hpast (hindex ▸ hi)
    · rw [(hlater i hindex).list] at hhead
      exact hp i ((hserves i hindex).mp hi) hhead

theorem checkPortsFrom_done (n index : Nat) (s : Pcb)
    (hsized : ∀ i, (s.res.queuingPorts i).channel ≠ none → 0 < (s.res.queuingPorts i).maxMessageSize) :
    LoopDone s (checkPortsFrom index n s) index n := by
  induction n generalizing index s with
  | zero => exact .of_none fun i hi => absurd hi.2.1 (by have := hi.1; omega)
  | succ n ih =>
      rw [checkPortsFrom]
      cases hc : (s.res.queuingPorts index).channel with
      | none => exact .of_none fun i hi => hi.2.2.1 index le_rfl hi.1 hc
      | some c =>
          have hchannel : (s.res.queuingPorts index).channel ≠ none := by
            rw [hc]
            exact Option.some_ne_none c
          dsimp only
          rcases checkPort_of_sized hc (hsized index hchannel) with ⟨hhas, heq⟩ | ⟨hnone, heq⟩
          · rw [heq]
            have hsame : SameBut index s (s.wokenFirst (.queuingPort index)) :=
              (wokenFirst_moves (A := .all) s fun _ _ => trivial).2.1
            obtain ⟨hserved, hlater, hothers⟩ := wokenFirst_served hhas.2
            exact .cons hsame.res hsame.krnl hchannel (fun _ => hserved) (fun hnot => absurd hhas hnot) hlater
              (fun p hp => hothers p (hp hhas)) (ih _ _ (by rw [hsame.res]; exact hsized))
          · rw [heq]
            exact .cons rfl rfl hchannel (fun hhas => absurd hhas hnone) (fun _ => ⟨rfl, rfl⟩)
              (fun _ _ => ⟨rfl, rfl⟩) (fun _ _ => rfl) (ih _ _ hsized)

/-! ## The ports of a partition -/

/-- Every port created has a size and is among those the loop looks at; the others have no channel. -/
structure PortsCreated (s : Pcb) : Prop where
  sized : ∀ i < s.res.queuingPortCount, 0 < (s.res.queuingPorts i).maxMessageSize
  room : s.res.queuingPortCount ≤ s.conf.maxQueuingPorts
  unused : ∀ i, s.res.queuingPortCount ≤ i → (s.res.queuingPorts i).channel = none

theorem PortsCreated.congr (h : PortsCreated s) (hconf : s'.conf = s.conf)
    (hstores : s'.stores.queuingPorts = s.stores.queuingPorts) : PortsCreated s' := by
  obtain ⟨hports, hcount⟩ : s'.res.queuingPorts = s.res.queuingPorts
      ∧ s'.res.queuingPortCount = s.res.queuingPortCount := by
    simpa only [stores, Prod.mk.injEq] using hstores
  refine ⟨fun j hj => ?_, ?_, fun j hj => ?_⟩
  · rw [hports]
    exact h.sized j (hcount ▸ hj)
  · rw [hcount, hconf]
    exact h.room
  · rw [hports]
    exact h.unused j (hcount ▸ hj)

theorem createQueuingPort_created (h : PortsCreated s) (name : Name)
    (maxMessageSize maxNbMessage portDirection discipline : Int) :
    PortsCreated (s.createQueuingPort name maxMessageSize maxNbMessage portDirection discipline).1 := by
  unfold createQueuingPort
  refine refused_elim (P := fun o => PortsCreated o.1) h fun hfull => ?_
  split
  · exact h
  · refine refused_elim (P := fun o => PortsCreated o.1) h fun _ => ?_
    refine refused_elim (P := fun o => PortsCreated o.1) h fun hsize => ?_
    refine refused_elim (P := fun o => PortsCreated o.1) h fun _ => ?_
    split
    · refine refused_elim (P := fun o => PortsCreated o.1) h fun _ => ?_
      have hpositive : 0 < maxMessageSize := Int.not_le.mp (not_or.mp hsize).1
      dsimp only
      rw [freshWaitList_eq]
      refine ⟨fun j hj => ?_, Nat.not_lt.mp (not_or.mp hfull).1, fun j hj => ?_⟩
      · show 0 < (Function.update s.res.queuingPorts s.res.queuingPortCount _ j).maxMessageSize
        by_cases hnew : j = s.res.queuingPortCount
        · rw [hnew, Function.update_self]
          exact hpositive
        · rw [Function.update_of_ne hnew]
          exact h.sized j (lt_of_le_of_ne (Nat.lt_succ_iff.mp hj) hnew)
      · have hlt : s.res.queuingPortCount < j := hj
        show (Function.update s.res.queuingPorts s.res.queuingPortCount _ j).channel = none
        rw [Function.update_of_ne hlt.ne']
        exact h.unused j hlt.le
    · exact h

theorem PortsCreated.step {e : Action} (h : PortsCreated s) (hsound : Sound s) (hstep : s.step e = some s') :
    PortsCreated s' := by
  have hconf := moves_conf (step_moves hsound.running (permits_all s e) hstep)
  have hstores := congrArg Stores.queuingPorts (step_stores hstep)
  cases e with
  | call service =>
      obtain ⟨-, rfl⟩ := call_eq_some hstep
      cases service with
      | createQueuingPort name maxMessageSize maxNbMessage portDirection discipline =>
          exact createQueuingPort_created h name maxMessageSize maxNbMessage portDirection discipline
      | _ => exact h.congr hconf hstores
  | _ => exact h.congr hconf hstores

theorem portsCreated_of_run (period identifier : Int) (conf : PartitionConf) (maxErrors : Nat) (krnl : Krnl)
    (memory : Nat → Process) (lastTick : Nat) {es : List Action}
    (hrun : Transition.run Pcb.step
      (partitionInit period identifier conf maxErrors krnl memory lastTick).startPartitionOs es = some s) :
    PortsCreated s := by
  have hinit : PortsCreated (partitionInit period identifier conf maxErrors krnl memory lastTick) :=
    ⟨fun _ hj => absurd hj (Nat.not_lt_zero _), Nat.zero_le _, fun _ _ => rfl⟩
  exact storesKept_of_run period identifier conf maxErrors krnl memory lastTick hrun
    (fun _ _ h hconf hstores => h.congr hconf (congrArg Stores.queuingPorts hstores))
    (fun _ _ _ hsound h hstep => h.step hsound hstep) hinit

/-- The call serves the ports exactly if only destinations need it, and none of them comes after a port without a
    channel. -/
theorem PortsCreated.serves_iff (h : PortsCreated s) :
    ServesPorts s s.checkAvailableResourcesOnPartitionPort
      ↔ ∀ i < s.res.queuingPortCount, ToServe s i → (s.res.queuingPorts i).portDirection = .destination
        ∧ ∀ j < i, (s.res.queuingPorts j).channel ≠ none := by
  have hdone : LoopDone s s.checkAvailableResourcesOnPartitionPort 0 s.conf.maxQueuingPorts := by
    refine checkPortsFrom_done _ 0 s fun i hchannel => h.sized i ?_
    by_contra hge
    exact hchannel (h.unused i (Nat.not_lt.mp hge))
  constructor
  · intro hserves i hi hto
    by_cases hloop : LoopServes s 0 s.conf.maxQueuingPorts i
    · obtain ⟨-, -, hchannels, ⟨c, -, -, hdirection⟩, -⟩ := hloop
      exact ⟨hdirection, fun j hj => hchannels j (Nat.zero_le j) hj.le⟩
    · -- the loop has left a list alone that should have lost its first waiter
      have hkept := (hserves.served i hi hto).removed.symm.trans (hdone.unchanged i hloop).list
      have hlength := congrArg List.length hkept
      have hpositive := List.length_pos_iff.mpr hto.2
      rw [List.length_tail] at hlength
      omega
  · intro hall
    have hloop : ∀ i < s.res.queuingPortCount, ToServe s i → LoopServes s 0 s.conf.maxQueuingPorts i := by
      intro i hi hto
      obtain ⟨hdirection, hchannels⟩ := hall i hi hto
      have hroom := h.room
      refine ⟨Nat.zero_le i, by omega, fun j _ hj => ?_, hto.hasReceiver hdirection⟩
      rcases Nat.eq_or_lt_of_le hj with rfl | hlt
      · obtain ⟨c, hc, -⟩ := hto.1
        rw [hc]
        exact Option.some_ne_none c
      · exact hchannels j hlt
    have hcreated : ∀ i, LoopServes s 0 s.conf.maxQueuingPorts i → i < s.res.queuingPortCount := by
      intro i hi
      by_contra hge
      exact hi.2.2.1 i (Nat.zero_le i) le_rfl (h.unused i (Nat.not_lt.mp hge))
    exact ⟨fun i hi hto => hdone.served i (hloop i hi hto),
      fun i hi hnot => hdone.unchanged i fun hs => hnot hs.2.2.2.toServe,
      fun p hp => hdone.others p fun i hi => hp i (hcreated i hi) hi.2.2.2.toServe⟩

/-- In every state a partition reaches, and after the time-outs of a new tick, the call serves every port created
    if and only if no port that somebody waits at for what it has is a source or comes after a port without a
    channel. -/
theorem checkPorts_serves_iff (period identifier : Int) (conf : PartitionConf) (maxErrors : Nat) (krnl : Krnl)
    (memory : Nat → Process) (lastTick : Nat) {es : List Action}
    (hrun : Transition.run Pcb.step
      (partitionInit period identifier conf maxErrors krnl memory lastTick).startPartitionOs es = some s) :
    ∀ u, u = s ∨ u = s.ticked → (ServesPorts u u.checkAvailableResourcesOnPartitionPort
      ↔ ∀ i < u.res.queuingPortCount, ToServe u i → (u.res.queuingPorts i).portDirection = .destination
        ∧ ∀ j < i, (u.res.queuingPorts j).channel ≠ none) := by
  have hcreated := portsCreated_of_run period identifier conf maxErrors krnl memory lastTick hrun
  rintro u (rfl | rfl)
  · exact hcreated.serves_iff
  · obtain ⟨proc, heq⟩ := ticked_eq s
    exact (hcreated.congr (by rw [heq]) (by rw [heq]; rfl)).serves_iff

/-- The only process waits for a message, and one has come. -/
def messageComes : List Action := receiver ++ [.call (.receiveQueuingMessage 1 1000), messageAt 20 2]

theorem checkPorts_serves_receiver :
    ∃ s, Transition.run Pcb.step (defaultPartition 1) messageComes = some s
      ∧ s.ticked.waitingProcesses (.queuingPort 0) = [0]
      ∧ ServesPorts s.ticked s.ticked.checkAvailableResourcesOnPartitionPort := by
  have hports : ((Transition.run Pcb.step (defaultPartition 1) messageComes).map fun s =>
      (s.ticked.waitingProcesses (.queuingPort 0), s.ticked.res.queuingPortCount,
        (s.ticked.res.queuingPorts 0).portDirection)) = some ([0], 1, .destination) := by decide
  obtain ⟨s, hs, hfields⟩ := Option.map_eq_some_iff.mp hports
  simp only [Prod.mk.injEq] at hfields
  obtain ⟨hlist, hcount, hdirection⟩ := hfields
  refine ⟨s, hs, hlist, ?_⟩
  refine (checkPorts_serves_iff 50 1 defaultPartitionConf 10 defaultKrnl (fun _ => zeroProcess) 0 hs
    s.ticked (Or.inr rfl)).mpr fun i hi _ => ?_
  rw [hcount, Nat.lt_one_iff] at hi
  subst hi
  exact ⟨hdirection, fun j hj => absurd hj (Nat.not_lt_zero j)⟩

/-- The commands channel is full. -/
def fullAt (uptime ticks : Nat) : Action :=
  .kernel uptime ticks 0 0 (fun _ => channelTemperature) fun _ => { channelCmds with currentNbMessages := 10 }

/-- The only process waits for a free slot, and the other partition has taken all the messages. -/
def slotComes : List Action :=
  [.loop, .call (.createQueuingPort "P2_OUT_CMDS".toList 32 10 0 0),
    .call (.createProcess (aperiodicProcess "A".toList 50)), .call (.start 1), .call (.setPartitionMode 3),
    fullAt 10 1, .loop, .call (.sendQueuingMessage 1 (fun _ => 7) 1 1000), clockAt 20 2]

theorem checkPorts_forgets_sender :
    ∃ s, Transition.run Pcb.step (defaultPartition 2) slotComes = some s ∧ ToServe s.ticked 0
      ∧ s.ticked.checkAvailableResourcesOnPartitionPort.waitingProcesses (.queuingPort 0) = [0]
      ∧ (s.ticked.checkAvailableResourcesOnPartitionPort.proc 0).processState = .waiting
      ∧ ¬ ServesPorts s.ticked s.ticked.checkAvailableResourcesOnPartitionPort := by
  have hports : ((Transition.run Pcb.step (defaultPartition 2) slotComes).map fun s =>
      (s.ticked.waitingProcesses (.queuingPort 0), s.ticked.res.queuingPortCount,
        (s.ticked.res.queuingPorts 0).portDirection, (s.ticked.res.queuingPorts 0).channel,
        decide ((s.ticked.krnl.queuingChannels 0).currentNbMessages
          < (s.ticked.krnl.queuingChannels 0).maxNbMessages)))
      = some ([0], 1, .source, some 0, true) := by decide
  have hstill : ((Transition.run Pcb.step (defaultPartition 2) slotComes).map fun s =>
      (s.ticked.checkAvailableResourcesOnPartitionPort.waitingProcesses (.queuingPort 0),
        (s.ticked.checkAvailableResourcesOnPartitionPort.proc 0).processState)) = some ([0], .waiting) := by decide
  obtain ⟨s, hs, hfields⟩ := Option.map_eq_some_iff.mp hports
  rw [hs, Option.map_some, Option.some.injEq] at hstill
  simp only [Prod.mk.injEq, decide_eq_true_eq] at hfields hstill
  obtain ⟨hlist, hcount, hdirection, hchannel, hfree⟩ := hfields
  have hserve : ToServe s.ticked 0 := by
    refine ⟨⟨0, hchannel, ?_⟩, by rw [hlist]; exact List.cons_ne_nil _ _⟩
    rw [hdirection]
    exact hfree
  refine ⟨s, hs, hserve, hstill.1, hstill.2, fun h => ?_⟩
  have hremoved := (h.served 0 (by rw [hcount]; exact Nat.one_pos) hserve).removed
  rw [hstill.1, hlist] at hremoved
  cases hremoved

end Pcb

end UcxArinc
