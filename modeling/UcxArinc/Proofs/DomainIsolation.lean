import UcxArinc.Proofs.ChannelAccess
import UcxArinc.Proofs.PartitionViews

set_option autoImplicit false

/-! # Domains of partitions

Some of the partitions, with some of the channels, are a domain of their own when their ports lead to these
channels only, and no port of another partition lets it write to one. What the partitions of a domain do then
depends on nothing the others do: the module shows them what it would show them if they were alone. -/

namespace UcxArinc

/-- Some partitions and the channels they use. -/
structure Domain where
  partitions : Nat → Bool
  samplingChannels : Nat → Bool
  queuingChannels : Nat → Bool

namespace Pcb

variable {s t s' : Pcb} {x : Others} {d : Domain}

/-! ## Alike -/

/-- The others have left the channels of the domain as they are. -/
structure Agrees (d : Domain) (k : Krnl) (x : Others) : Prop where
  sampling : ∀ c, d.samplingChannels c = true → x.samplingChannels c = k.samplingChannels c
  queuing : ∀ c, d.queuingChannels c = true → x.queuingChannels c = k.queuingChannels c

/-- Two outcomes that differ only in what others may have left. -/
def Alike (d : Domain) (o o' : Outcome) : Prop := ∃ x, Agrees d o.1.krnl x ∧ o' = outcomeWith o x

/-- The sampling ports created lead to channels that meet `S`, for their direction; the queuing ports to channels
    that meet `Q`. -/
structure PortChannels (S : PortDirection → Nat → Prop) (Q : Nat → Prop) (s : Pcb) : Prop where
  sampling : ∀ i < s.res.samplingPortCount, ∀ c, (s.res.samplingPorts i).channel = some c →
    S (s.res.samplingPorts i).portDirection c
  queuing : ∀ i c, (s.res.queuingPorts i).channel = some c → Q c

/-- The ports lead to channels of the domain. -/
def PortsWithin (d : Domain) (s : Pcb) : Prop :=
  PortChannels (fun _ c => d.samplingChannels c = true) (fun c => d.queuingChannels c = true) s

/-- No port writes to a channel of the domain: a sampling port may read one. -/
def PortsBeside (d : Domain) (s : Pcb) : Prop :=
  PortChannels (fun direction c => direction = .source → d.samplingChannels c = false)
    (fun c => d.queuingChannels c = false) s

theorem Agrees.alike (hx : Agrees d s.krnl x) {o : Outcome} (hsampling : o.1.krnl.samplingChannels = s.krnl.samplingChannels)
    (hqueuing : o.1.krnl.queuingChannels = s.krnl.queuingChannels) : Alike d o (outcomeWith o x) :=
  ⟨x, ⟨hsampling ▸ hx.sampling, hqueuing ▸ hx.queuing⟩, rfl⟩

theorem Agrees.ret (hx : Agrees d s.krnl x) (rc : ReturnCode) : Alike d (s.ret rc) ((s.withOthers x).ret rc) :=
  hx.alike rfl rfl

theorem Agrees.crash (hx : Agrees d s.krnl x) : Alike d s.crash (s.withOthers x).crash := hx.alike rfl rfl

theorem Agrees.refused (hx : Agrees d s.krnl x) {p : Prop} [Decidable p] {rc : ReturnCode} {o o' : Outcome}
    (h : Alike d o o') : Alike d (if p then s.ret rc else o) (if p then (s.withOthers x).ret rc else o') := by
  by_cases hp : p
  · rw [if_pos hp, if_pos hp]
    exact hx.ret rc
  · rw [if_neg hp, if_neg hp]
    exact h

theorem Agrees.withCurrent (hx : Agrees d s.krnl x) {F F' : Node → Outcome} (h : ∀ node, Alike d (F node) (F' node)) :
    Alike d (s.withCurrent F) ((s.withOthers x).withCurrent F') := by
  unfold Pcb.withCurrent
  rw [show (s.withOthers x).processCurrent = s.processCurrent from rfl]
  cases s.processCurrent with
  | none => exact hx.crash
  | some node => exact h node

/-! ## Channels of the domain -/

/-- What a call writes to a channel of the domain is there in both. -/
theorem Agrees.setQueuingChannel (hx : Agrees d s.krnl x) {c : Nat} (v : QueuingChannel) {r : Option Result} :
    Alike d (s.setQueuingChannel c v, r) ((s.withOthers x).setQueuingChannel c v, r) := by
  refine ⟨{ x with queuingChannels := Function.update x.queuingChannels c v }, ⟨hx.sampling, fun c' hc' => ?_⟩, rfl⟩
  show Function.update x.queuingChannels c v c' = Function.update s.krnl.queuingChannels c v c'
  by_cases hsame : c' = c
  · rw [hsame, Function.update_self, Function.update_self]
  · rw [Function.update_of_ne hsame, Function.update_of_ne hsame]
    exact hx.queuing c' hc'

theorem Agrees.takeFromChannel (hx : Agrees d s.krnl x) {c : Nat} (hc : d.queuingChannels c = true) :
    Alike d (s.takeFromChannel c) ((s.withOthers x).takeFromChannel c) := by
  unfold Pcb.takeFromChannel
  rw [show (s.withOthers x).krnl.queuingChannels c = s.krnl.queuingChannels c from hx.queuing c hc]
  exact hx.setQueuingChannel _

theorem writeSamplingMessage_alike (hx : Agrees d s.krnl x) (hports : PortsWithin d s) (samplingPortId : Int)
    (messageAddr : Area) (length : Int) : Alike d (s.writeSamplingMessage samplingPortId messageAddr length)
      ((s.withOthers x).writeSamplingMessage samplingPortId messageAddr length) := by
  unfold writeSamplingMessage
  rw [show (s.withOthers x).findSamplingPortById samplingPortId = s.findSamplingPortById samplingPortId from rfl]
  cases hfind : s.findSamplingPortById samplingPortId with
  | none => exact hx.ret _
  | some index =>
      refine hx.refused (hx.refused (hx.refused ?_))
      rw [show (s.withOthers x).res = s.res from rfl]
      cases hchannel : (s.res.samplingPorts index).channel with
      | none => exact hx.crash
      | some c =>
          have hsame := hx.sampling c (hports.sampling index (findIndex_eq_some hfind).1 c hchannel)
          dsimp only
          rw [show (s.withOthers x).krnl.samplingChannels c = s.krnl.samplingChannels c from hsame]
          generalize hv : ({ s.krnl.samplingChannels c with
            buffer := memcpy (s.krnl.samplingChannels c).buffer 0 messageAddr length.toNat
            currentMessageSize := length
            lastUpdateTime := s.krnl.uptime } : SamplingChannel) = v
          refine ⟨{ x with samplingChannels := Function.update x.samplingChannels c v },
            ⟨fun c' hc' => ?_, hx.queuing⟩, by rw [← hv]; rfl⟩
          show Function.update x.samplingChannels c v c' = Function.update s.krnl.samplingChannels c v c'
          by_cases hc : c' = c
          · rw [hc, Function.update_self, Function.update_self]
          · rw [Function.update_of_ne hc, Function.update_of_ne hc]
            exact hx.sampling c' hc'

theorem readSamplingMessage_alike (hx : Agrees d s.krnl x) (hports : PortsWithin d s) (samplingPortId : Int) :
    Alike d (s.readSamplingMessage samplingPortId) ((s.withOthers x).readSamplingMessage samplingPortId) := by
  unfold readSamplingMessage
  rw [show (s.withOthers x).findSamplingPortById samplingPortId = s.findSamplingPortById samplingPortId from rfl]
  cases hfind : s.findSamplingPortById samplingPortId with
  | none => exact hx.ret _
  | some index =>
      refine hx.refused ?_
      rw [show (s.withOthers x).res = s.res from rfl]
      cases hchannel : (s.res.samplingPorts index).channel with
      | none => exact hx.crash
      | some c =>
          have hsame := hx.sampling c (hports.sampling index (findIndex_eq_some hfind).1 c hchannel)
          dsimp only
          rw [show (s.withOthers x).krnl.samplingChannels c = s.krnl.samplingChannels c from hsame]
          exact hx.alike rfl rfl

theorem sendQueuingMessage_alike (hx : Agrees d s.krnl x) (hports : PortsWithin d s) (queuingPortId : Int)
    (messageAddr : Area) (length timeOut : Int) : Alike d (s.sendQueuingMessage queuingPortId messageAddr length timeOut)
      ((s.withOthers x).sendQueuingMessage queuingPortId messageAddr length timeOut) := by
  unfold sendQueuingMessage
  rw [show (s.withOthers x).findQueuingPortById queuingPortId = s.findQueuingPortById queuingPortId from rfl]
  cases s.findQueuingPortById queuingPortId with
  | none => exact hx.ret _
  | some index =>
      refine hx.refused (hx.refused (hx.refused (hx.refused (hx.withCurrent fun node => ?_))))
      dsimp only
      rw [show (s.withOthers x).res = s.res from rfl]
      cases hchannel : (s.res.queuingPorts index).channel with
      | none => exact hx.crash
      | some c =>
          have hsame := hx.queuing c (hports.queuing index c hchannel)
          dsimp only
          rw [show (s.withOthers x).krnl.queuingChannels c = s.krnl.queuingChannels c from hsame,
            show (s.withOthers x).waitingProcesses = s.waitingProcesses from rfl]
          split
          · exact hx.setQueuingChannel _
          · exact hx.refused (hx.refused (hx.alike rfl rfl))

theorem receiveQueuingMessage_alike (hx : Agrees d s.krnl x) (hports : PortsWithin d s) (queuingPortId timeOut : Int) :
    Alike d (s.receiveQueuingMessage queuingPortId timeOut)
      ((s.withOthers x).receiveQueuingMessage queuingPortId timeOut) := by
  unfold receiveQueuingMessage
  rw [show (s.withOthers x).findQueuingPortById queuingPortId = s.findQueuingPortById queuingPortId from rfl]
  cases s.findQueuingPortById queuingPortId with
  | none => exact hx.ret _
  | some index =>
      refine hx.refused (hx.refused (hx.withCurrent fun node => ?_))
      dsimp only
      rw [show (s.withOthers x).res = s.res from rfl]
      cases hchannel : (s.res.queuingPorts index).channel with
      | none => exact hx.crash
      | some c =>
          have hown := hports.queuing index c hchannel
          dsimp only
          rw [show (s.withOthers x).krnl.queuingChannels c = s.krnl.queuingChannels c from hx.queuing c hown]
          split
          · exact hx.takeFromChannel hown
          · exact hx.refused (hx.refused (hx.alike rfl rfl))

theorem clearQueuingPort_alike (hx : Agrees d s.krnl x) (hports : PortsWithin d s) (queuingPortId : Int) :
    Alike d (s.clearQueuingPort queuingPortId) ((s.withOthers x).clearQueuingPort queuingPortId) := by
  unfold clearQueuingPort
  rw [show (s.withOthers x).findQueuingPortById queuingPortId = s.findQueuingPortById queuingPortId from rfl]
  cases s.findQueuingPortById queuingPortId with
  | none => exact hx.ret _
  | some index =>
      refine hx.refused ?_
      rw [show (s.withOthers x).res = s.res from rfl]
      cases hchannel : (s.res.queuingPorts index).channel with
      | none => exact hx.crash
      | some c =>
          dsimp only
          rw [show (s.withOthers x).krnl.queuingChannels c = s.krnl.queuingChannels c from
            hx.queuing c (hports.queuing index c hchannel)]
          exact hx.setQueuingChannel _

theorem startProcesses_withOthers (ht : t = s.withOthers x) : t.startProcesses = s.startProcesses.withOthers x := by
  rw [ht]
  unfold startProcesses
  dsimp only
  rw [show (s.withOthers x).arincTimeFindFirstReleasePoint = s.arincTimeFindFirstReleasePoint from rfl,
    show (s.withOthers x).krnl.uptime = s.krnl.uptime from rfl,
    show (s.withOthers x).conf = s.conf from rfl, forEachProcess_withOthers]
  generalize s.forEachProcess (startProcess s.krnl.uptime
    (s.conf.throughPointer s.arincTimeFindFirstReleasePoint)) = u
  rw [show (u.withOthers x).errorHandlerProcess = u.errorHandlerProcess from rfl]
  cases u.errorHandlerProcess with
  | none => rfl
  | some handler => rfl

theorem startProcesses_krnl (s : Pcb) : s.startProcesses.krnl = s.krnl := by
  unfold startProcesses
  rw [forEachProcess_eq]
  dsimp only
  cases s.errorHandlerProcess with
  | none => rfl
  | some handler => rfl

/-- A change of mode may ask for an idle window, which no partition sees. -/
theorem setPartitionMode_alike (hx : Agrees d s.krnl x) (operatingMode : Int) :
    Alike d (s.setPartitionMode operatingMode) ((s.withOthers x).setPartitionMode operatingMode) := by
  unfold setPartitionMode
  cases OperatingMode.ofInt? operatingMode with
  | none => exact hx.ret _
  | some mode =>
      refine hx.refused (hx.refused ?_)
      cases mode with
      | idle => exact ⟨{ x with idleCurrentPartition := true }, ⟨hx.sampling, hx.queuing⟩, rfl⟩
      | coldStart => exact hx.alike rfl rfl
      | warmStart => exact hx.alike rfl rfl
      | normal =>
          have hnormal : ∀ u v : Pcb, u.krnl = s.krnl → v = u.withOthers x →
              Alike d (u.startProcesses.toPartitionOs, none) (v.startProcesses.toPartitionOs, none) := by
            intro u v hu hv
            have hkrnl := (startProcesses_krnl u).trans hu
            rw [startProcesses_withOthers hv]
            exact hx.alike (o := (u.startProcesses.toPartitionOs, none)) (congrArg Krnl.samplingChannels hkrnl)
              (congrArg Krnl.queuingChannels hkrnl)
          exact hnormal _ _ rfl rfl

/-- Every service of a partition of the domain. -/
theorem exec_alike (hx : Agrees d s.krnl x) (hports : PortsWithin d s) (service : Service) :
    Alike d (s.exec service) ((s.withOthers x).exec service) := by
  cases hreaches : Service.reachesKrnl service with
  | false =>
      rw [exec_withOthers hreaches]
      have hkrnl := exec_krnl s service
      refine hx.alike ?_ ?_
      · rw [hkrnl]
        cases service with
        | writeSamplingMessage | setPartitionMode | sendQueuingMessage | receiveQueuingMessage | clearQueuingPort =>
            cases hreaches
        | _ => rfl
      · rw [hkrnl]
        cases service with
        | writeSamplingMessage | setPartitionMode | sendQueuingMessage | receiveQueuingMessage | clearQueuingPort =>
            cases hreaches
        | _ => rfl
  | true =>
      cases service with
      | writeSamplingMessage id messageAddr length => exact writeSamplingMessage_alike hx hports _ _ _
      | readSamplingMessage id => exact readSamplingMessage_alike hx hports _
      | sendQueuingMessage id messageAddr length timeOut => exact sendQueuingMessage_alike hx hports _ _ _ _
      | receiveQueuingMessage id timeOut => exact receiveQueuingMessage_alike hx hports _ _
      | clearQueuingPort id => exact clearQueuingPort_alike hx hports _
      | setPartitionMode mode => exact setPartitionMode_alike hx _
      | _ => cases hreaches

/-! ## The loop -/

theorem wokenFirst_withOthers (q : WaitList) : (s.withOthers x).wokenFirst q = (s.wokenFirst q).withOthers x := by
  unfold wokenFirst
  rw [wakeFirst_withOthers]
  cases s.wakeFirst q false with
  | none => rfl
  | some w => rfl

theorem checkPort_withOthers {c : Nat} (hc : x.queuingChannels c = s.krnl.queuingChannels c) (index : Nat) :
    (s.withOthers x).checkPort index c = (s.checkPort index c).withOthers x := by
  rw [checkPort_eq, checkPort_eq, show (s.withOthers x).krnl.queuingChannels c = s.krnl.queuingChannels c from hc,
    show (s.withOthers x).res = s.res from rfl, wokenFirst_withOthers]
  split_ifs
  · exact wokenFirst_withOthers _
  · exact wokenFirst_withOthers _
  · rfl
  · rfl

theorem checkPort_krnl (s : Pcb) (index c : Nat) : (s.checkPort index c).krnl = s.krnl := by
  have hwoken : ∀ (u : Pcb) q, (u.wokenFirst q).krnl = u.krnl := by
    intro u q
    rcases wokenFirst_cases u q with ⟨-, h⟩ | ⟨p, h⟩
    · rw [h]
    · obtain ⟨rest, -, heq⟩ := wakeFirst_eq_some h
      rw [heq]
      rfl
  rw [checkPort_eq]
  split_ifs
  · rw [hwoken, hwoken]
  · exact hwoken _ _
  · exact hwoken _ _
  · rfl

/-- The partition OS looks at the channels of the ports there are. -/
theorem checkPortsFrom_withOthers (n index : Nat) (s : Pcb)
    (h : ∀ i c, (s.res.queuingPorts i).channel = some c → x.queuingChannels c = s.krnl.queuingChannels c) :
    checkPortsFrom index n (s.withOthers x) = (checkPortsFrom index n s).withOthers x := by
  induction n generalizing index s with
  | zero => rfl
  | succ n ih =>
      unfold checkPortsFrom
      rw [show (s.withOthers x).res = s.res from rfl]
      cases hc : (s.res.queuingPorts index).channel with
      | none => rfl
      | some c =>
          dsimp only
          rw [checkPort_withOthers (h index c hc)]
          exact ih (index + 1) (s.checkPort index c) (by rw [checkPort_res, checkPort_krnl]; exact h)

theorem processSchedule_withOthers (ht : t = s.withOthers x) : t.processSchedule = s.processSchedule.withOthers x := by
  have hrequeue : (s.withOthers x).requeueCurrent = s.requeueCurrent.withOthers x := by
    unfold requeueCurrent
    rw [show (s.withOthers x).processCurrent = s.processCurrent from rfl]
    cases s.processCurrent with
    | none => rfl
    | some node =>
        dsimp only
        rw [show (s.withOthers x).proc = s.proc from rfl]
        split
        · rfl
        · rfl
  rw [ht]
  unfold processSchedule
  rw [hrequeue]
  generalize s.requeueCurrent = u
  dsimp only
  rw [show (u.withOthers x).readyErrorHandler = u.readyErrorHandler from rfl,
    show (u.withOthers x).processes = u.processes from rfl,
    show (u.withOthers x).scheduleCandidate = u.scheduleCandidate from rfl]
  cases u.readyErrorHandler with
  | some p => rfl
  | none =>
      cases u.processes.foldl u.scheduleCandidate none with
      | none => rfl
      | some select => rfl

theorem newTick_withOthers
    (h : ∀ i c, (s.res.queuingPorts i).channel = some c → x.queuingChannels c = s.krnl.queuingChannels c) :
    (s.withOthers x).newTick = s.newTick.withOthers x := by
  unfold newTick arincTimeUpdatePartition checkAvailableResourcesOnPartitionPort
  have hlast : ({ s.withOthers x with lastTick := (s.withOthers x).krnl.ticks } : Pcb)
      = ({ s with lastTick := s.krnl.ticks } : Pcb).withOthers x := rfl
  rw [hlast]
  generalize hu : ({ s with lastTick := s.krnl.ticks } : Pcb) = u
  have hres : u.res = s.res := by rw [← hu]
  have hkrnl : u.krnl = s.krnl := by rw [← hu]
  rw [show (u.withOthers x).krnl.uptime = u.krnl.uptime from rfl, forEachProcess_withOthers,
    forEachProcess_withOthers]
  rw [forEachProcess_eq, forEachProcess_eq]
  refine checkPortsFrom_withOthers _ 0 _ ?_
  dsimp only
  rw [hres, hkrnl]
  exact h

theorem dispatched_withOthers
    (h : ∀ i c, (s.res.queuingPorts i).channel = some c → x.queuingChannels c = s.krnl.queuingChannels c) :
    (s.withOthers x).dispatched = s.dispatched.withOthers x := by
  unfold dispatched
  rw [show (s.withOthers x).krnl.ticks = s.krnl.ticks from rfl,
    show (s.withOthers x).lastTick = s.lastTick from rfl]
  split
  · rw [newTick_withOthers h]
    exact processSchedule_withOthers rfl
  · exact processSchedule_withOthers rfl

/-- The end of a service reaches the channel of the port the process waited for, or none. -/
theorem resumeContext_alike (hx : Agrees d s.krnl x) (ht : t = s.withOthers x)
    (hports : ∀ i c, (s.res.queuingPorts i).channel = some c → d.queuingChannels c = true) (p : Nat) :
    Alike d (s.resumeContext p) (t.resumeContext p) := by
  rw [ht]
  unfold resumeContext
  rw [show (s.withOthers x).proc = s.proc from rfl]
  cases (s.proc p).context with
  | sendQueuingMessage index messageAddr length timeOut =>
      refine hx.refused ?_
      rw [show (s.withOthers x).res = s.res from rfl]
      cases hchannel : (s.res.queuingPorts index).channel with
      | none => exact hx.crash
      | some c =>
          dsimp only
          rw [show (s.withOthers x).krnl.queuingChannels c = s.krnl.queuingChannels c from
            hx.queuing c (hports index c hchannel)]
          obtain ⟨y, hy, hwritten⟩ := hx.setQueuingChannel (r := none) (c := c)
            ((s.krnl.queuingChannels c).channelEnqueue messageAddr length)
          rw [show (s.withOthers x).setQueuingChannel c ((s.krnl.queuingChannels c).channelEnqueue messageAddr length)
            = (s.setQueuingChannel c ((s.krnl.queuingChannels c).channelEnqueue messageAddr length)).withOthers y from
              congrArg Prod.fst hwritten]
          split
          · exact Agrees.alike (s := s.setQueuingChannel c _) hy rfl rfl
          · exact Agrees.alike (s := s.setQueuingChannel c _) hy rfl rfl
  | receiveQueuingMessage index timeOut =>
      refine hx.refused ?_
      rw [show (s.withOthers x).res = s.res from rfl]
      cases hchannel : (s.res.queuingPorts index).channel with
      | none => exact hx.crash
      | some c =>
          have hown := hports index c hchannel
          dsimp only
          split
          · rw [modProc_withOthers]
            exact Agrees.takeFromChannel (s := s.modProc p _) hx hown
          · exact hx.takeFromChannel hown
  | waitSemaphore timed | waitEvent timed | acquireMutex timed | sendBuffer timed | suspendSelf =>
      unfold finishWait
      exact hx.refused (hx.ret _)
  | stop => exact hx.refused (hx.ret _)
  | lockPreemption | unlockPreemption =>
      dsimp only
      rw [refreshLockLevel_withOthers]
      have hkrnl := congrArg Stores.krnl (refreshLockLevel_stores s .noError)
      exact hx.alike (congrArg Krnl.samplingChannels hkrnl) (congrArg Krnl.queuingChannels hkrnl)
  | readBlackboard index timed | receiveBuffer index timed => exact hx.refused (hx.alike rfl rfl)
  | aperiodicWaitEvent => exact hx.refused (hx.alike rfl rfl)
  | raiseApplicationErrorFull error =>
      dsimp only
      rw [raiseToErrorHandler_withOthers]
      have hkrnl := congrArg Stores.krnl (raiseToErrorHandler_stores (s := s) p error)
      exact hx.alike (congrArg Krnl.samplingChannels hkrnl) (congrArg Krnl.queuingChannels hkrnl)
  | _ => exact hx.alike rfl rfl

/-- The loop of the partition OS. -/
theorem partitionOsLoop_alike (hx : Agrees d s.krnl x) (hports : PortsWithin d s) :
    Alike d s.partitionOsLoop (s.withOthers x).partitionOsLoop := by
  have hstores := dispatched_stores s
  have hkrnl : s.dispatched.krnl = s.krnl := congrArg Stores.krnl hstores
  have hsame : s.dispatched.res.queuingPorts = s.res.queuingPorts := congrArg (fun y => y.queuingPorts.1) hstores
  rw [partitionOsLoop_eq, partitionOsLoop_eq, dispatched_withOthers fun i c hc => hx.queuing c (hports.queuing i c hc),
    show (s.withOthers x).status = s.status from rfl]
  split
  · exact hx.alike rfl rfl
  · have hxDispatched : Agrees d s.dispatched.krnl x := hkrnl ▸ hx
    have hchannels : ∀ i c, (s.dispatched.res.queuingPorts i).channel = some c → d.queuingChannels c = true := by
      rw [hsame]
      exact hports.queuing
    generalize s.dispatched = u at hxDispatched hchannels
    rw [show (u.withOthers x).processCurrent = u.processCurrent from rfl,
      show (u.withOthers x).status = u.status from rfl]
    cases u.processCurrent with
    | none => exact hxDispatched.alike rfl rfl
    | some node =>
        dsimp only
        split
        · exact resumeContext_alike (s := { u with ctl := .process }) hxDispatched rfl hchannels node.data
        · exact hxDispatched.alike rfl rfl

/-- A partition of the domain does the same whatever the others have left. -/
theorem stepOutcome_alike (hx : Agrees d s.krnl x) (hports : PortsWithin d s) {e : Action} (he : e.isKernel = false)
    {o : Outcome} (hstep : s.stepOutcome e = some o) :
    ∃ o', (s.withOthers x).stepOutcome e = some o' ∧ Alike d o o' := by
  cases e with
  | call service =>
      obtain ⟨hctl, ho⟩ := Option.ite_none_right_eq_some.mp hstep
      exact ⟨_, if_pos hctl, Option.some.inj ho ▸ exec_alike hx hports service⟩
  | fault errorCode messageAddr length =>
      obtain ⟨hctl, ho⟩ := Option.ite_none_right_eq_some.mp hstep
      refine ⟨_, if_pos hctl, Option.some.inj ho ▸ ?_⟩
      rw [hmRaiseError_withOthers]
      obtain ⟨errors, hstores⟩ := hmRaiseError_stores (s := s) errorCode messageAddr length
      have hkrnl := congrArg Stores.krnl hstores
      exact hx.alike (congrArg Krnl.samplingChannels hkrnl) (congrArg Krnl.queuingChannels hkrnl)
  | mainReturn =>
      obtain ⟨hctl, ho⟩ := Option.ite_none_right_eq_some.mp hstep
      exact ⟨_, if_pos hctl, Option.some.inj ho ▸ hx.alike rfl rfl⟩
  | loop =>
      obtain ⟨hctl, ho⟩ := Option.ite_none_right_eq_some.mp hstep
      exact ⟨_, if_pos hctl, Option.some.inj ho ▸ partitionOsLoop_alike hx hports⟩
  | kernel uptime ticks windowsIdx majorFrameCount samplingChannels queuingChannels => cases he

/-! ## The ports stay where they are -/

/-- A port is created only from a row of the routing table whose channel meets the condition. -/
def CreatesPorts (S : PortDirection → Nat → Prop) (Q : Nat → Prop) (s : Pcb) : Action → Prop
  | .call (.createSamplingPort name _ _ _) => ∀ row, s.checkPortInConfTable name = some row →
    ∀ c, row.samplingChannel = some c → S row.portDirection c
  | .call (.createQueuingPort name _ _ _ _) => ∀ row, s.checkPortInConfTable name = some row →
    ∀ c, row.queuingChannel = some c → Q c
  | _ => True

variable {S : PortDirection → Nat → Prop} {Q : Nat → Prop}

/-- Every row may be used whose channel meets the condition. -/
def portChannels (S : PortDirection → Nat → Prop) (Q : Nat → Prop) : Permit :=
  { Permit.all with
    port := fun row sampling =>
      if sampling then ∀ c, row.samplingChannel = some c → S row.portDirection c
      else ∀ c, row.queuingChannel = some c → Q c }

theorem permits_portChannels {e : Action} (he : CreatesPorts S Q s e) : Permits (portChannels S Q) s e := by
  have hall := permits_all s e
  refine ⟨hall.giveBack, fun service hservice => ?_, hall.wake, hall.fault, fun _ _ =>
    ⟨trivial, fun _ => ⟨fun _ _ _ => trivial, fun _ _ _ => trivial, fun _ _ => trivial⟩⟩⟩
  have hcall := hall.call service hservice
  subst hservice
  cases service with
  | createSamplingPort name maxMessageSize portDirection refreshPeriod =>
      exact fun row haccept => he row haccept.row_eq
  | createQueuingPort name maxMessageSize maxNbMessage portDirection queuingDiscipline =>
      exact fun row haccept => he row haccept.row_eq
  | _ => exact hcall

theorem PortChannels.congr (h : PortChannels S Q s) (hports : SamePorts s s') : PortChannels S Q s' := by
  refine ⟨fun i hi c hc => ?_, fun i c hc => ?_⟩
  · obtain ⟨v, hv⟩ := hports.samplingPorts i
    rw [hports.samplingPortCount] at hi
    rw [hv] at hc ⊢
    exact h.sampling i hi c hc
  · rw [hports.queuingPorts] at hc
    exact h.queuing i c hc

theorem PortChannels.onKrnl (h : PortChannels S Q s) (k : Krnl) : PortChannels S Q { s with krnl := k } :=
  ⟨h.sampling, h.queuing⟩

theorem PortChannels.move (h : PortChannels S Q s) (hm : Move (portChannels S Q) s s') : PortChannels S Q s' := by
  rcases hm.setup with ⟨-, hports⟩ | ⟨row, port, -, hA, hport, rfl⟩ | ⟨row, port, -, hA, hport, rfl⟩
  · exact h.congr hports
  · refine ⟨fun i hi c hc => ?_, h.queuing⟩
    dsimp only at hc ⊢
    rcases Nat.lt_succ_iff_lt_or_eq.mp hi with hlt | rfl
    · rw [Function.update_of_ne hlt.ne] at hc ⊢
      exact h.sampling i hlt c hc
    · rw [Function.update_self] at hc ⊢
      rw [hport.portDirection]
      exact hA c (hport.channel ▸ hc)
  · refine ⟨h.sampling, fun i c hc => ?_⟩
    dsimp only at hc
    by_cases hi : i = s.res.queuingPortCount
    · rw [hi, Function.update_self] at hc
      exact hA c (hport.channel ▸ hc)
    · rw [Function.update_of_ne hi] at hc
      exact h.queuing i c hc

theorem PortChannels.step {e : Action} (h : PortChannels S Q s) (hsound : Sound s) (he : CreatesPorts S Q s e)
    (hstep : s.step e = some s') : PortChannels S Q s' :=
  (Moves.keep (I := PortChannels S Q) (fun _ _ _ h hm => h.move hm)
    (step_moves hsound.running (permits_portChannels he) hstep) hsound h).2

end Pcb

/-! ## The module -/

namespace CoreModule

variable {m m' t : CoreModule} {d : Domain}

/-- The partitions of the domain create ports to its channels only, the others none with which they write to
    one. -/
def PortsApart (d : Domain) (s : Pcb) (i : Nat) (e : Action) : Prop :=
  if d.partitions i = true then
    Pcb.CreatesPorts (fun _ c => d.samplingChannels c = true) (fun c => d.queuingChannels c = true) s e
  else
    Pcb.CreatesPorts (fun direction c => direction = .source → d.samplingChannels c = false)
      (fun c => d.queuingChannels c = false) s e

/-- The ports are kept apart, and so are the process records: the partitions allocate them in one heap, so a restart
    must not free a process that a waiting list holds. The heap is taken to have room for all that is created. -/
def KeepsApart (d : Domain) (m : CoreModule) : ModuleAction → Prop
  | .partition i e => PortsApart d (m.partition i) i e ∧ (m.partition i).FreesNoWaiter e
  | .time _ _ _ _ => True

/-- What a service returns to partition `i`. -/
def answer (m : CoreModule) : ModuleAction → Option (Nat × Option Result)
  | .partition i e => some (i, ((m.partition i).stepOutcome e).bind Prod.snd)
  | .time _ _ _ _ => none

/-- For the partitions of the domain there is no difference. -/
structure DomainAlike (d : Domain) (m m' : CoreModule) : Prop where
  krnl : ∃ x, Pcb.Agrees d m.krnl x ∧ m'.krnl = m.krnl.withOthers x
  partitions : ∀ i, d.partitions i = true → m'.partition i = { m.partition i with krnl := m'.krnl }

/-- The ports are where they are to be. -/
structure Apart (d : Domain) (m : CoreModule) : Prop where
  sound : ∀ i, (m.partition i).Sound
  within : ∀ i, d.partitions i = true → Pcb.PortsWithin d (m.partition i)
  beside : ∀ i, d.partitions i = false → Pcb.PortsBeside d (m.partition i)

theorem sound_onKrnl {s : Pcb} (h : s.Sound) (k : Krnl) : ({ s with krnl := k } : Pcb).Sound :=
  ⟨h.process, h.main, h.starting, h.running⟩

theorem Apart.step {e : ModuleAction} (h : Apart d m) (hapart : KeepsApart d m e) (hstep : m.step e = some m') :
    Apart d m' := by
  cases e with
  | partition i e =>
      have hpartition := step_partition hstep
      refine ⟨fun j => ?_, fun j hj => ?_, fun j hj => ?_⟩
      · by_cases hji : j = i
        · rw [hji]
          exact (h.sound i).step hpartition.step
        · rw [hpartition.others j hji]
          exact sound_onKrnl (h.sound j) _
      · by_cases hji : j = i
        · subst hji
          have hports := hapart.1
          rw [PortsApart, if_pos hj] at hports
          exact (h.within j hj).step (h.sound j) hports hpartition.step
        · rw [hpartition.others j hji]
          exact Pcb.PortChannels.onKrnl (h.within j hj) _
      · by_cases hji : j = i
        · subst hji
          have hports := hapart.1
          rw [PortsApart, if_neg (by simp [hj])] at hports
          exact (h.beside j hj).step (h.sound j) hports hpartition.step
        · rw [hpartition.others j hji]
          exact Pcb.PortChannels.onKrnl (h.beside j hj) _
  | time uptime ticks windowsIdx majorFrameCount =>
      obtain ⟨-, -, -, -, -, hpartitions⟩ := step_time hstep
      refine ⟨fun j => ?_, fun j hj => ?_, fun j hj => ?_⟩
      · rw [hpartitions j]
        exact sound_onKrnl (h.sound j) _
      · rw [hpartitions j]
        exact Pcb.PortChannels.onKrnl (h.within j hj) _
      · rw [hpartitions j]
        exact Pcb.PortChannels.onKrnl (h.beside j hj) _

theorem step_partition_some {i : Nat} {e : Action} {s : Pcb} (he : e.isKernel = false)
    (hstep : (m.partition i).step e = some s) :
    m.step (.partition i e) = some { partitions := Function.update m.partitions i s, krnl := s.krnl } := by
  unfold CoreModule.step
  simp only [he, Bool.false_eq_true, if_false, hstep, Option.map_some]

/-- What a partition of the domain does is the same in both. -/
theorem DomainAlike.seen {i : Nat} {e : Action} (hapart : Apart d m) (h : DomainAlike d m t)
    (hkeeps : KeepsApart d m (.partition i e)) (hi : d.partitions i = true)
    (hstep : m.step (.partition i e) = some m') :
    KeepsApart d t (.partition i e) ∧ answer m (.partition i e) = answer t (.partition i e)
      ∧ ∃ t', t.step (.partition i e) = some t' ∧ DomainAlike d m' t' := by
  obtain ⟨x, hx, ht⟩ := h.krnl
  have hview : t.partition i = (m.partition i).withOthers x := by
    rw [h.partitions i hi, ht]
    rfl
  have hpartition := step_partition hstep
  obtain ⟨o, ho, hnext⟩ := Option.map_eq_some_iff.mp hpartition.step
  obtain ⟨o', ho', y, hy, hlike⟩ := Pcb.stepOutcome_alike (x := x) hx (hapart.within i hi) hpartition.notKernel ho
  have hstep' : (t.partition i).step e = some ((m'.partition i).withOthers y) := by
    rw [← hnext, Pcb.step, hview, ho', hlike]
    rfl
  refine ⟨?_, ?_, _, step_partition_some hpartition.notKernel hstep', ⟨y, ?_, rfl⟩, fun j hj => ?_⟩
  · obtain ⟨hports, hfrees⟩ := hkeeps
    rw [PortsApart, if_pos hi] at hports
    rw [KeepsApart, PortsApart, if_pos hi, hview]
    cases e with
    | call service => cases service <;> exact ⟨hports, hfrees⟩
    | _ => exact ⟨trivial, trivial⟩
  · simp only [answer]
    rw [hview, ho, ho', hlike]
    rfl
  · rw [hnext] at hy
    exact hy
  · by_cases hji : j = i
    · rw [hji]
      simp only [partition, Function.update_self]
      rfl
    · rw [hpartition.others j hji]
      have hsame := h.partitions j hj
      simp only [partition, Function.update_of_ne hji] at hsame ⊢
      rw [Pcb.mk.injEq] at hsame ⊢
      simpa using hsame

/-- Time passes in both. -/
theorem DomainAlike.time {uptime ticks windowsIdx majorFrameCount : Nat} (h : DomainAlike d m t)
    (hstep : m.step (.time uptime ticks windowsIdx majorFrameCount) = some m') :
    ∃ t', t.step (.time uptime ticks windowsIdx majorFrameCount) = some t' ∧ DomainAlike d m' t' := by
  obtain ⟨x, hx, ht⟩ := h.krnl
  unfold CoreModule.step at hstep ⊢
  obtain ⟨htime, hstep⟩ := Option.ite_none_right_eq_some.mp hstep
  cases hstep
  have htime' : t.krnl.uptime ≤ uptime ∧ uptime ≤ maxUptime := by
    rw [ht]
    exact htime
  refine ⟨_, if_pos htime', ⟨x, ⟨hx.sampling, hx.queuing⟩, ?_⟩, fun j hj => ?_⟩
  · dsimp only
    rw [ht]
    rfl
  · have hsame := h.partitions j hj
    simp only [partition] at hsame ⊢
    rw [Pcb.mk.injEq] at hsame ⊢
    simpa using hsame

end CoreModule

end UcxArinc
