import UcxArinc.Proofs.ModuleRuns

set_option autoImplicit false

/-! # Sampling channels hold the last write

A write replaces what a sampling channel holds and notes the time; a read leaves the channel alone and notes the
validity in its own port. Whatever has happened between, a read finds the message of the last write. -/

namespace UcxArinc

/-! ## The channel -/

/-- A message written, and when. -/
structure Sample where
  message : List UInt8
  length : Int
  time : Nat
  deriving DecidableEq

namespace SamplingChannel

/-- The channel holds the sample; at first it holds none. -/
def Holds (x : SamplingChannel) : Option Sample → Prop
  | none => x.currentMessageSize = 0
  | some w => 0 < w.length ∧ x.currentMessageSize = w.length ∧ x.buffer.bytes w.length.toNat = w.message
      ∧ x.lastUpdateTime = w.time ∧ w.length ≤ x.maxMessageSize

/-- What a write leaves. -/
def written (x : SamplingChannel) (messageAddr : Area) (length : Int) (uptime : Nat) : SamplingChannel :=
  { x with
    buffer := memcpy x.buffer 0 messageAddr length.toNat
    currentMessageSize := length
    lastUpdateTime := uptime }

theorem holds_written {x : SamplingChannel} {messageAddr : Area} {length : Int} {uptime : Nat} (hpos : 0 < length)
    (hfit : length ≤ x.maxMessageSize) :
    (x.written messageAddr length uptime).Holds (some ⟨messageAddr.bytes length.toNat, length, uptime⟩) := by
  refine ⟨hpos, rfl, ?_, rfl, hfit⟩
  refine List.map_congr_left fun a ha => ?_
  have hin := List.mem_range.mp ha
  show memcpy x.buffer 0 messageAddr length.toNat a = messageAddr a
  unfold memcpy
  rw [Nat.zero_add, if_pos ⟨Nat.zero_le a, hin⟩, Nat.sub_zero]

end SamplingChannel

/-! ## What a step does to a channel and to the ports -/

namespace Pcb

variable {s s' : Pcb} {c : Nat}

/-- The channel of the sampling port an identifier names. -/
def samplingChannelOf (s : Pcb) (samplingPortId : Int) : Option Nat :=
  (s.findSamplingPortById samplingPortId).bind fun index => (s.res.samplingPorts index).channel

/-- The message that a write has put into channel `c`. -/
def messageWritten (s : Pcb) (c : Nat) : Action → Option Sample
  | .call (.writeSamplingMessage samplingPortId messageAddr length) =>
    if s.samplingChannelOf samplingPortId = some c
        ∧ succeeds (s.writeSamplingMessage samplingPortId messageAddr length) then
      some ⟨messageAddr.bytes length.toNat, length, s.krnl.uptime⟩
    else none
  | _ => none

/-- The `VALIDITY` that a read of port `index` has returned. -/
def validityRead (s : Pcb) (index : Nat) : Action → Option Validity
  | .call (.readSamplingMessage samplingPortId) =>
    if s.findSamplingPortById samplingPortId = some index
        ∧ (s.res.samplingPorts index).portDirection = .destination then
      (s.readSamplingMessage samplingPortId).2.map Result.validity
    else none
  | _ => none

/-- The channel after a step. -/
inductive SamplingStep (s : Pcb) (e : Action) (c : Nat) : SamplingChannel → Prop
  | same (hwritten : s.messageWritten c e = none) : SamplingStep s e c (s.krnl.samplingChannels c)
  | written (index : Nat) (messageAddr : Area) (length : Int)
      (hwritten : s.messageWritten c e = some ⟨messageAddr.bytes length.toNat, length, s.krnl.uptime⟩)
      (hindex : index < s.res.samplingPortCount) (hchannel : (s.res.samplingPorts index).channel = some c)
      (hpos : 0 < length) (hfit : length ≤ (s.res.samplingPorts index).maxMessageSize) :
      SamplingStep s e c ((s.krnl.samplingChannels c).written messageAddr length s.krnl.uptime)

def setSamplingChannel (s : Pcb) (c : Nat) (x : SamplingChannel) : Pcb :=
  { s with krnl := { s.krnl with samplingChannels := Function.update s.krnl.samplingChannels c x } }

theorem writeSamplingMessage_outcome (samplingPortId : Int) (messageAddr : Area) (length : Int) :
    PortOutcome s (s.findSamplingPortById samplingPortId) (fun index => (s.res.samplingPorts index).channel)
      (fun index _ => 0 < length ∧ length ≤ (s.res.samplingPorts index).maxMessageSize)
      (fun c => (s.setSamplingChannel c
        ((s.krnl.samplingChannels c).written messageAddr length s.krnl.uptime)).ret .noError)
      (s.writeSamplingMessage samplingPortId messageAddr length) := by
  unfold writeSamplingMessage
  split
  · exact .refused _ nofun
  · next index hfind =>
      refine refused_elim (.refused _ nofun) fun hfit => refused_elim (.refused _ nofun) fun hpos => ?_
      refine refused_elim (.refused _ nofun) fun _ => ?_
      split
      · exact .crashed
      · next c hchannel => exact .done index c hfind hchannel ⟨not_le.mp hpos, not_lt.mp hfit⟩

theorem writeSamplingMessage_step (c : Nat) (samplingPortId : Int) (messageAddr : Area) (length : Int) :
    SamplingStep s (.call (.writeSamplingMessage samplingPortId messageAddr length)) c
      ((s.writeSamplingMessage samplingPortId messageAddr length).1.krnl.samplingChannels c) := by
  have houtcome := writeSamplingMessage_outcome (s := s) samplingPortId messageAddr length
  have hwritten : s.messageWritten c (.call (.writeSamplingMessage samplingPortId messageAddr length))
    = if s.samplingChannelOf samplingPortId = some c
        ∧ succeeds (s.writeSamplingMessage samplingPortId messageAddr length)
      then some ⟨messageAddr.bytes length.toNat, length, s.krnl.uptime⟩ else none := rfl
  generalize s.writeSamplingMessage samplingPortId messageAddr length = o at houtcome hwritten ⊢
  cases houtcome with
  | refused rc hrc =>
      refine .same (hwritten.trans (if_neg fun h => ?_))
      rw [succeeds_ret, decide_eq_true_iff] at h
      exact hrc h.2
  | crashed => exact .same (hwritten.trans (if_neg fun h => nomatch h.2))
  | done index c' hfind hchannel hP =>
      have hof : s.samplingChannelOf samplingPortId = some c' := by
        rw [samplingChannelOf, hfind]
        exact hchannel
      show SamplingStep s _ c (Function.update s.krnl.samplingChannels c'
        ((s.krnl.samplingChannels c').written messageAddr length s.krnl.uptime) c)
      by_cases hc : c = c'
      · subst hc
        rw [Function.update_self]
        exact .written index messageAddr length (hwritten.trans (if_pos ⟨hof, rfl⟩)) (findIndex_eq_some hfind).1
          hchannel hP.1 hP.2
      · rw [Function.update_of_ne hc]
        refine .same (hwritten.trans (if_neg fun h => hc ?_))
        rw [hof] at h
        exact (Option.some.inj h.1).symm

theorem samplingStep {e : Action} (hkernel : e.isKernel = false) (hstep : s.step e = some s') (c : Nat) :
    SamplingStep s e c (s'.krnl.samplingChannels c) := by
  have hsame : ∀ {k : Krnl}, k.samplingChannels = s.krnl.samplingChannels → s.messageWritten c e = none →
      SamplingStep s e c (k.samplingChannels c) := by
    intro k hk hwritten
    rw [hk]
    exact .same hwritten
  have hstores := congrArg Stores.krnl (step_stores hstep)
  cases e with
  | call service =>
      obtain ⟨-, rfl⟩ := call_eq_some hstep
      have hkrnl := congrArg Krnl.samplingChannels (exec_krnl s service)
      cases service with
      | writeSamplingMessage samplingPortId messageAddr length =>
          exact writeSamplingMessage_step c samplingPortId messageAddr length
      | _ => exact hsame hkrnl rfl
  | loop =>
      obtain ⟨-, rfl⟩ := loop_eq_some hstep
      refine hsame ?_ rfl
      rw [partitionOsLoop_krnl s]
  | kernel => cases hkernel
  | fault errorCode messageAddr length => exact hsame (congrArg Krnl.samplingChannels hstores) rfl
  | mainReturn => exact hsame (congrArg Krnl.samplingChannels hstores) rfl

/-- A port that is not created has not been read. -/
def NoneRead (s : Pcb) : Prop :=
  ∀ index, s.res.samplingPortCount ≤ index → (s.res.samplingPorts index).lastMsgValidity = .invalid

/-- A new port has not been read. -/
theorem NoneRead.createSamplingPort (h : NoneRead s) (name : Name)
    (maxMessageSize portDirection refreshPeriod : Int) :
    NoneRead (s.createSamplingPort name maxMessageSize portDirection refreshPeriod).1 ∧ ∀ index,
      ((s.createSamplingPort name maxMessageSize portDirection refreshPeriod).1.res.samplingPorts
        index).lastMsgValidity = (s.res.samplingPorts index).lastMsgValidity := by
  let P : Outcome → Prop := fun o => NoneRead o.1
    ∧ ∀ index, (o.1.res.samplingPorts index).lastMsgValidity = (s.res.samplingPorts index).lastMsgValidity
  have hret : ∀ rc, P (s.ret rc) := fun rc => ⟨h, fun _ => rfl⟩
  show P _
  unfold Pcb.createSamplingPort
  refine refused_elim (hret _) fun _ => ?_
  split
  · exact hret _
  · refine refused_elim (hret _) fun _ => refused_elim (hret _) fun _ => ?_
    split
    · exact hret _
    · refine refused_elim (hret _) fun _ => refused_elim (hret _) fun _ => ?_
      refine ⟨fun index hindex => ?_, fun index => ?_⟩
      · dsimp only at hindex ⊢
        rw [Function.update_of_ne (by omega)]
        exact h index (by omega)
      · dsimp only
        by_cases hnew : index = s.res.samplingPortCount
        · rw [hnew, Function.update_self]
          exact (h _ (le_refl _)).symm
        · rw [Function.update_of_ne hnew]

/-- What a read of a channel returns to a port. -/
def sampleRead (x : SamplingChannel) (uptime : Nat) (refreshPeriod : Int) : Result :=
  if x.currentMessageSize = 0 then { returnCode := .noAction, validity := .invalid }
  else
    { returnCode := .noError
      message := x.buffer.bytes x.currentMessageSize.toNat
      length := x.currentMessageSize
      validity := if (uptime : Int) - x.lastUpdateTime ≤ refreshPeriod then .valid else .invalid }

theorem readSamplingMessage_eq {samplingPortId : Int} {index : Nat}
    (hfind : s.findSamplingPortById samplingPortId = some index)
    (hdestination : (s.res.samplingPorts index).portDirection = .destination)
    (hchannel : (s.res.samplingPorts index).channel = some c) :
    s.readSamplingMessage samplingPortId = ({ s with res := { s.res with
      samplingPorts := Function.update s.res.samplingPorts index { s.res.samplingPorts index with
        lastMsgValidity := (sampleRead (s.krnl.samplingChannels c) s.krnl.uptime
          (s.res.samplingPorts index).refreshPeriod).validity } } },
      some (sampleRead (s.krnl.samplingChannels c) s.krnl.uptime (s.res.samplingPorts index).refreshPeriod)) := by
  unfold readSamplingMessage
  rw [hfind]
  dsimp only
  rw [if_neg (not_not.mpr hdestination), hchannel]
  rfl

theorem NoneRead.readSamplingMessage (h : NoneRead s) (samplingPortId : Int) :
    NoneRead (s.readSamplingMessage samplingPortId).1 ∧ ∀ index,
      ((s.readSamplingMessage samplingPortId).1.res.samplingPorts index).lastMsgValidity
        = (s.validityRead index (.call (.readSamplingMessage samplingPortId))).getD
          (s.res.samplingPorts index).lastMsgValidity := by
  -- a read that ends before it reaches a channel
  have hearly : ∀ {o : Outcome}, s.readSamplingMessage samplingPortId = o → o.1.res = s.res →
      (∀ index, s.validityRead index (.call (.readSamplingMessage samplingPortId)) = none) →
      NoneRead (s.readSamplingMessage samplingPortId).1 ∧ ∀ index,
        ((s.readSamplingMessage samplingPortId).1.res.samplingPorts index).lastMsgValidity
          = (s.validityRead index (.call (.readSamplingMessage samplingPortId))).getD
            (s.res.samplingPorts index).lastMsgValidity := by
    intro o ho hres hnone
    unfold NoneRead
    rw [ho, hres]
    exact ⟨h, fun index => by rw [hnone]; rfl⟩
  cases hfind : s.findSamplingPortById samplingPortId with
  | none =>
      refine hearly (o := s.ret .invalidParam) ?_ rfl fun index => if_neg fun hread => ?_
      · unfold Pcb.readSamplingMessage
        rw [hfind]
      · rw [hfind] at hread
        exact nomatch hread.1
  | some i =>
      by_cases hdestination : (s.res.samplingPorts i).portDirection = .destination
      · cases hchannel : (s.res.samplingPorts i).channel with
        | none =>
            have hcrash : s.readSamplingMessage samplingPortId = s.crash := by
              unfold Pcb.readSamplingMessage
              rw [hfind]
              dsimp only
              rw [if_neg (not_not.mpr hdestination), hchannel]
            refine hearly hcrash rfl fun index => ?_
            unfold validityRead
            dsimp only
            rw [hcrash]
            exact ite_self none
        | some c =>
            have hread := readSamplingMessage_eq hfind hdestination hchannel
            have hcount := (findIndex_eq_some hfind).1
            unfold validityRead
            rw [hread]
            refine ⟨fun index hindex => ?_, fun index => ?_⟩
            · dsimp only at hindex ⊢
              rw [Function.update_of_ne (by omega)]
              exact h index hindex
            · dsimp only
              by_cases hi : index = i
              · rw [hi, Function.update_self, if_pos ⟨hfind, hdestination⟩, hread]
                rfl
              · rw [Function.update_of_ne hi, if_neg fun hread => hi ?_]
                · rfl
                · rw [hfind] at hread
                  exact (Option.some.inj hread.1).symm
      · refine hearly (o := s.ret .invalidMode) ?_ rfl fun index => if_neg fun hread => ?_
        · unfold Pcb.readSamplingMessage
          rw [hfind]
          dsimp only
          rw [if_pos hdestination]
        · rw [hfind] at hread
          obtain rfl := Option.some.inj hread.1
          exact hdestination hread.2

/-- After a step a port's `LAST_MSG_VALIDITY` is what the step has read from the port, if it has read it. -/
theorem NoneRead.step (h : NoneRead s) {e : Action} (hstep : s.step e = some s') : NoneRead s'
    ∧ ∀ index, (s'.res.samplingPorts index).lastMsgValidity
      = (s.validityRead index e).getD (s.res.samplingPorts index).lastMsgValidity := by
  have hports := congrArg Stores.samplingPorts (step_stores hstep)
  have hsame : ∀ {t : Pcb}, (t.res.samplingPorts, t.res.samplingPortCount)
      = (s.res.samplingPorts, s.res.samplingPortCount) → (∀ index, s.validityRead index e = none) →
      NoneRead t ∧ ∀ index, (t.res.samplingPorts index).lastMsgValidity
        = (s.validityRead index e).getD (s.res.samplingPorts index).lastMsgValidity := by
    intro t ht hnone
    obtain ⟨hports, hcount⟩ := Prod.mk.inj ht
    unfold NoneRead
    rw [hports, hcount]
    exact ⟨h, fun index => by rw [hnone]; rfl⟩
  cases e with
  | call service =>
      obtain ⟨-, rfl⟩ := call_eq_some hstep
      cases service with
      | createSamplingPort name maxMessageSize portDirection refreshPeriod =>
          show NoneRead (s.createSamplingPort name maxMessageSize portDirection refreshPeriod).1 ∧ ∀ index,
            ((s.createSamplingPort name maxMessageSize portDirection refreshPeriod).1.res.samplingPorts
              index).lastMsgValidity = (s.res.samplingPorts index).lastMsgValidity
          exact h.createSamplingPort name maxMessageSize portDirection refreshPeriod
      | readSamplingMessage samplingPortId => exact h.readSamplingMessage samplingPortId
      | _ => exact hsame hports fun _ => rfl
  | _ => exact hsame hports fun _ => rfl

end Pcb

/-! ## The last write and the last read -/

namespace CoreModule

variable {m m' : CoreModule} {c : Nat}

/-- The last message written to channel `c`, if any. -/
def recordWrite (c : Nat) (w : Option Sample) (m : CoreModule) : ModuleAction → Option Sample
  | .partition i e => ((m.partition i).messageWritten c e).or w
  | .time _ _ _ _ => w

def lastWrite (c : Nat) (m : CoreModule) (es : List ModuleAction) : Option Sample :=
  Transition.record CoreModule.step (recordWrite c) none m es

/-- The validity that the last read of port `index` of partition `i` has returned, if any. -/
def recordRead (i index : Nat) (v : Option Validity) (m : CoreModule) : ModuleAction → Option Validity
  | .partition j e => if j = i then ((m.partition i).validityRead index e).or v else v
  | .time _ _ _ _ => v

def lastRead (i index : Nat) (m : CoreModule) (es : List ModuleAction) : Option Validity :=
  Transition.record CoreModule.step (recordRead i index) none m es

/-- The messages of every port fit the channel's buffer, and nothing has been written to it. -/
structure UnwrittenChannel (krnl : Krnl) (c : Nat) : Prop where
  rows : ∀ row ∈ krnl.systemPortTable, row.samplingChannel = some c →
    row.messageSizeBytes ≤ (krnl.samplingChannels c).maxMessageSize
  unwritten : (krnl.samplingChannels c).currentMessageSize = 0

/-- The channel holds the last write. -/
structure HoldsLastWrite (table : List PortMapping) (c : Nat) (m : CoreModule) (w : Option Sample) : Prop where
  grounded : Grounded table m
  rows : ∀ row ∈ table, row.samplingChannel = some c →
    row.messageSizeBytes ≤ (m.krnl.samplingChannels c).maxMessageSize
  holds : (m.krnl.samplingChannels c).Holds w

theorem HoldsLastWrite.step {table : List PortMapping} {w : Option Sample} (h : HoldsLastWrite table c m w)
    {e : ModuleAction} (hstep : m.step e = some m') : HoldsLastWrite table c m' (recordWrite c w m e) := by
  have hgrounded := h.grounded.step hstep
  have hrows := h.rows
  have hholds := h.holds
  cases e with
  | time uptime ticks windowsIdx majorFrameCount =>
      obtain ⟨-, -, -, -, hchannels, -⟩ := step_time hstep
      rw [← hchannels] at hrows hholds
      exact ⟨hgrounded, hrows, hholds⟩
  | partition i e =>
      have hpartition := step_partition hstep
      have hchannel := Pcb.samplingStep hpartition.notKernel hpartition.step c
      rw [show (m'.partition i).krnl = m'.krnl from rfl] at hchannel
      show HoldsLastWrite table c m' (((m.partition i).messageWritten c e).or w)
      generalize hnew : m'.krnl.samplingChannels c = x at hchannel
      cases hchannel with
      | same hwritten =>
          rw [hwritten]
          exact ⟨hgrounded, hnew ▸ hrows, hnew ▸ hholds⟩
      | written index messageAddr length hwritten hindex hport hpos hfit =>
          obtain ⟨row, hrow, hof⟩ := (h.grounded.partitions i).ports.sampling index hindex
          have hsize : row.messageSizeBytes ≤ (m.krnl.samplingChannels c).maxMessageSize :=
            h.rows row hrow (hof.channel.symm.trans hport)
          rw [hwritten]
          refine ⟨hgrounded, hnew ▸ hrows, ?_⟩
          rw [hnew]
          exact SamplingChannel.holds_written hpos ((hof.maxMessageSize ▸ hfit).trans hsize)

/-- The ports note their last reads. -/
structure NotesLastRead (i index : Nat) (m : CoreModule) (v : Option Validity) : Prop where
  noneRead : (m.partition i).NoneRead
  noted : ((m.partition i).res.samplingPorts index).lastMsgValidity = v.getD .invalid

theorem NotesLastRead.step {i index : Nat} {v : Option Validity} (h : NotesLastRead i index m v) {e : ModuleAction}
    (hstep : m.step e = some m') : NotesLastRead i index m' (recordRead i index v m e) := by
  cases e with
  | time uptime ticks windowsIdx majorFrameCount =>
      obtain ⟨-, -, -, -, -, hpartitions⟩ := step_time hstep
      exact ⟨hpartitions i ▸ h.noneRead, hpartitions i ▸ h.noted⟩
  | partition j e =>
      have hpartition := step_partition hstep
      by_cases hj : j = i
      · subst hj
        obtain ⟨hnone, hports⟩ := h.noneRead.step hpartition.step
        refine ⟨hnone, ?_⟩
        rw [hports index, h.noted, recordRead, if_pos rfl]
        cases (m.partition j).validityRead index e <;> rfl
      · rw [recordRead, if_neg hj]
        have hother := hpartition.others i (Ne.symm hj)
        exact ⟨hother ▸ h.noneRead, hother ▸ h.noted⟩

theorem notesLastRead_moduleInit (krnl : Krnl) (table : Nat → PartitionBoot) (i index : Nat) :
    NotesLastRead i index (moduleInit krnl table) none := by
  have hports := congrArg (fun x : Pcb.Stores => x.samplingPorts.1) (Pcb.startPartitionOs_stores
    (partitionInit (table i).period (table i).identifier (table i).conf (table i).maxErrors krnl
      (table i).memory (table i).lastTick))
  have hzero : ((moduleInit krnl table).partition i).res.samplingPorts = fun _ => zeroSamplingPort := hports
  refine ⟨fun index' _ => ?_, ?_⟩
  all_goals
    rw [hzero]
    rfl

/-- What a read of port `index` on channel `c` returns when `w` was written last. -/
structure ReadsLastWrite (m : CoreModule) (i index : Nat) (w : Option Sample) (r : Result) : Prop where
  noAction : r.returnCode = .noAction ↔ w = none
  unwritten : w = none → r.length = 0 ∧ r.validity = .invalid
  written : ∀ x, w = some x → r.returnCode = .noError ∧ r.message = x.message ∧ r.length = x.length
    ∧ (r.validity = .valid ↔ (m.krnl.uptime : Int) - x.time ≤ ((m.partition i).res.samplingPorts index).refreshPeriod)

theorem HoldsLastWrite.read {table : List PortMapping} {w : Option Sample} (h : HoldsLastWrite table c m w)
    {i : Nat} {samplingPortId : Int} {index : Nat}
    (hfind : (m.partition i).findSamplingPortById samplingPortId = some index)
    (hdestination : ((m.partition i).res.samplingPorts index).portDirection = .destination)
    (hchannel : ((m.partition i).res.samplingPorts index).channel = some c) :
    ∃ r, ((m.partition i).readSamplingMessage samplingPortId).2 = some r ∧ ReadsLastWrite m i index w r := by
  refine ⟨_, congrArg Prod.snd (Pcb.readSamplingMessage_eq hfind hdestination hchannel), ?_⟩
  have hholds := h.holds
  rw [show (m.partition i).krnl = m.krnl from rfl]
  unfold Pcb.sampleRead
  cases w with
  | none =>
      rw [if_pos (show (m.krnl.samplingChannels c).currentMessageSize = 0 from hholds)]
      exact ⟨iff_of_true rfl rfl, fun _ => ⟨rfl, rfl⟩, nofun⟩
  | some x =>
      obtain ⟨hpos, hsize, hmessage, htime, -⟩ := hholds
      rw [if_neg (show (m.krnl.samplingChannels c).currentMessageSize ≠ 0 by omega), hsize, hmessage, htime]
      refine ⟨iff_of_false nofun nofun, nofun, ?_⟩
      rintro y ⟨⟩
      refine ⟨rfl, rfl, rfl, ?_⟩
      dsimp only
      split
      · next hage => exact iff_of_true rfl hage
      · next hage => exact iff_of_false nofun hage

/-- In every interleaving of the partitions a read of a sampling channel finds nothing exactly where nothing has been
    written, and otherwise the message of the last write, valid exactly where it is no older than the port's
    `REFRESH_PERIOD`; a port's `LAST_MSG_VALIDITY` is the validity of its last read; and the last message lies in
    the channel's buffer. -/
theorem samplingChannel_holds_lastWrite (krnl : Krnl) (table : Nat → PartitionBoot)
    (huptime : krnl.uptime ≤ maxUptime) (hunwritten : UnwrittenChannel krnl c) {es : List ModuleAction}
    (hrun : Transition.run CoreModule.step (moduleInit krnl table) es = some m) :
    (∀ i samplingPortId index, (m.partition i).findSamplingPortById samplingPortId = some index →
      ((m.partition i).res.samplingPorts index).portDirection = .destination →
      ((m.partition i).res.samplingPorts index).channel = some c →
      ∃ r, ((m.partition i).readSamplingMessage samplingPortId).2 = some r
        ∧ ReadsLastWrite m i index (lastWrite c (moduleInit krnl table) es) r)
      ∧ (∀ i index, ((m.partition i).res.samplingPorts index).lastMsgValidity
        = (lastRead i index (moduleInit krnl table) es).getD .invalid)
      ∧ ∀ w, lastWrite c (moduleInit krnl table) es = some w →
        w.length ≤ (m.krnl.samplingChannels c).maxMessageSize := by
  have hwrite := Transition.run_record_invariant (I := HoldsLastWrite krnl.systemPortTable c)
    (f := recordWrite c) (b := none) hrun (fun m e m' w h hstep => h.step hstep)
    ⟨grounded_moduleInit krnl table huptime, hunwritten.rows, hunwritten.unwritten⟩
  have hread : ∀ i index, NotesLastRead i index m (lastRead i index (moduleInit krnl table) es) := by
    intro i index
    exact Transition.run_record_invariant (I := NotesLastRead i index) (f := recordRead i index) hrun
      (fun m e m' v h hstep => h.step hstep) (notesLastRead_moduleInit krnl table i index)
  refine ⟨fun i samplingPortId index hfind hdestination hchannel => hwrite.read hfind hdestination hchannel,
    fun i index => (hread i index).noted, fun w hw => ?_⟩
  have hholds := hwrite.holds
  rw [show Transition.record CoreModule.step (recordWrite c) none (moduleInit krnl table) es = some w from hw]
    at hholds
  exact hholds.2.2.2.2

theorem unwrittenChannel_default : UnwrittenChannel defaultKrnl 0 :=
  ⟨show ∀ row ∈ systemPortTable, row.samplingChannel = some 0 → row.messageSizeBytes ≤ 64 by decide, rfl⟩

/-- Partition 1 writes two bytes and then one; partition 2 reads, and time passes. -/
def writeAndRead : List ModuleAction :=
  [.partition 1 .loop, .partition 1 (.call (.createSamplingPort "P1_OUT_TEMP".toList 64 0 50)),
    .partition 2 .loop, .partition 2 (.call (.createSamplingPort "P2_IN_TEMP".toList 64 1 50)),
    .partition 1 (.call (.writeSamplingMessage 1 (fun _ => 7) 2)), .time 10 1 0 0,
    .partition 1 (.call (.writeSamplingMessage 1 (fun _ => 8) 1)),
    .partition 2 (.call (.readSamplingMessage 1)), .time 70 7 0 0]

/-- The next read returns the second message, which is too old. -/
theorem samplingChannel_holds_second :
    ∃ m r, Transition.run CoreModule.step defaultModule writeAndRead = some m
      ∧ ((m.partition 2).readSamplingMessage 1).2 = some r
      ∧ (r.message, r.length, r.validity) = ([8], 1, .invalid)
      ∧ lastWrite 0 defaultModule writeAndRead = some ⟨[8], 1, 10⟩
      ∧ lastRead 2 0 defaultModule writeAndRead = some .valid
      ∧ ReadsLastWrite m 2 0 (lastWrite 0 defaultModule writeAndRead) r := by
  have hrun : ((Transition.run CoreModule.step defaultModule writeAndRead).map fun m =>
      ((m.partition 2).findSamplingPortById 1, ((m.partition 2).res.samplingPorts 0).portDirection,
        ((m.partition 2).res.samplingPorts 0).channel))
      = some (some 0, .destination, some 0) := by decide
  have hread : ((Transition.run CoreModule.step defaultModule writeAndRead).bind fun m =>
      ((m.partition 2).readSamplingMessage 1).2.map fun r => (r.message, r.length, r.validity))
      = some ([8], 1, .invalid) := by decide
  have hwritten : lastWrite 0 defaultModule writeAndRead = some ⟨[8], 1, 10⟩ := by decide
  have hnoted : lastRead 2 0 defaultModule writeAndRead = some .valid := by decide
  obtain ⟨m, hm, hport⟩ := Option.map_eq_some_iff.mp hrun
  obtain ⟨hfind, hport⟩ := Prod.mk.inj hport
  obtain ⟨hdestination, hchannel⟩ := Prod.mk.inj hport
  obtain ⟨r, hr, hreads⟩ := (samplingChannel_holds_lastWrite (c := 0) defaultKrnl _ (by decide)
    unwrittenChannel_default hm).1 2 1 0 hfind hdestination hchannel
  rw [hm, Option.bind_some, hr, Option.map_some, Option.some.injEq] at hread
  exact ⟨m, r, hm, hr, hread, hwritten, hnoted, hreads⟩

end CoreModule

end UcxArinc
