import UcxArinc.Proofs.ChannelAccess
import UcxArinc.Proofs.Suspension

set_option autoImplicit false

/-! # Blocked calls of the queuing ports

`SEND_QUEUING_MESSAGE` and `RECEIVE_QUEUING_MESSAGE` that block learn how their wait has ended from
`time_counter` alone, and then use the channel without looking at it. They report truly when the wait
was ended by its own time-out, or by the port with the counter still running and the channel still
ready. -/

namespace UcxArinc

/-- A call that may wait at a queuing port. -/
inductive PortCall
  | send (messageAddr : Area) (length : Int)
  | receive

namespace PortCall

def service (queuingPortId timeOut : Int) : PortCall → Service
  | .send messageAddr length => .sendQueuingMessage queuingPortId messageAddr length timeOut
  | .receive => .receiveQueuingMessage queuingPortId timeOut

def context (index : Nat) (timeOut : Int) : PortCall → Context
  | .send messageAddr length => .sendQueuingMessage index messageAddr length timeOut
  | .receive => .receiveQueuingMessage index timeOut

/-- The channel has what the call waits for: room, or a message. -/
def Ready (channel : QueuingChannel) : PortCall → Prop
  | .send _ _ => channel.currentNbMessages < channel.maxNbMessages
  | .receive => 0 < channel.currentNbMessages

/-- The channel after the call. -/
def transfer (channel : QueuingChannel) : PortCall → QueuingChannel
  | .send messageAddr length => channel.channelEnqueue messageAddr length
  | .receive => channel.channelDequeue

/-- The message the call returns. -/
def message (channel : QueuingChannel) : PortCall → List UInt8
  | .send _ _ => []
  | .receive => channel.headMessage

end PortCall

namespace Pcb

variable {s s' : Pcb} {p index : Nat} {call : PortCall}

/-! ## The call and its end -/

/-- Process `p` calls the service in `s`, for port `index`, and blocks. -/
structure BlocksOnPort (call : PortCall) (p index : Nat) (queuingPortId timeOut : Int)
    (s s' : Pcb) : Prop where
  caller : ∃ c, s.processCurrent = some c ∧ c.data = p
  port : s.findQueuingPortById queuingPortId = some index
  call : s.step (.call (call.service queuingPortId timeOut)) = some s'
  blocks : Waiting p s'

/-- The turn of the loop in state `u` wakes process `p` because the channel of port `index` is ready. -/
structure WokenByPort (call : PortCall) (p index : Nat) (u : Pcb) : Prop where
  tick : u.krnl.ticks ≠ u.lastTick
  waits : Waiting p u.ticked
  first : ∃ rest, u.ticked.waitingProcesses (.queuingPort index) = p :: rest
    ∧ u.newTick.waitingProcesses (.queuingPort index) = rest
  ready : ∃ c, (u.res.queuingPorts index).channel = some c ∧ call.Ready (u.krnl.queuingChannels c)

/-- The wait that begins in `s` is ended by the port. -/
def EndedByPort (call : PortCall) (p index : Nat) (s : Pcb) (es : List Action) : Prop :=
  ∃ u, Transition.Leaves step (Waiting p) s es u .loop ∧ WokenByPort call p index u

/-- The channel of port `index` is ready for the call. -/
def PortReady (call : PortCall) (index : Nat) (s : Pcb) : Prop :=
  ∃ c, (s.res.queuingPorts index).channel = some c ∧ call.Ready (s.krnl.queuingChannels c)

/-- From `s` to `s'` the message is really put into the channel, or taken out of it and returned. -/
def Transfers (call : PortCall) (index : Nat) (s s' : Pcb) (r : Result) : Prop :=
  ∃ c, (s.res.queuingPorts index).channel = some c ∧ call.Ready (s.krnl.queuingChannels c)
    ∧ s'.krnl.queuingChannels = Function.update s.krnl.queuingChannels c
      (call.transfer (s.krnl.queuingChannels c))
    ∧ r.message = call.message (s.krnl.queuingChannels c) ∧ r.length = r.message.length

/-- The return code of a call that blocked tells how it has ended. -/
structure ReportsPort (rc : ReturnCode) (timeOut : Int) (timedOut woken transferred : Prop) : Prop where
  noError : rc = .noError ↔ woken
  transferred : woken → transferred
  timedOut : rc = .timedOut ↔ timedOut
  infinite : timeOut = infiniteTimeValue → rc ≠ .timedOut

/-- The record of a process that blocks at a port. -/
theorem BlocksOnPort.record {queuingPortId timeOut : Int}
    (h : BlocksOnPort call p index queuingPortId timeOut s s') (hsound : Sound s) :
    (timeOut = infiniteTimeValue ∨ 0 < timeOut) ∧ s'.nextProc = s.nextProc
      ∧ (s'.proc p).timeCounter = if timeOut ≠ infiniteTimeValue then s.fromNow timeOut
        else (s.proc p).timeCounter := by
  obtain ⟨⟨c, hc, rfl⟩, hport, hcall, hblocks⟩ := h
  obtain ⟨hrun, rfl⟩ := call_eq_some hcall
  have hnot : ¬ Waiting c.data s := (Calls.active hsound ⟨hrun, c, hc, rfl⟩).1
  revert hblocks
  generalize hP : (fun o : Outcome => Waiting c.data o.1 → (timeOut = infiniteTimeValue ∨ 0 < timeOut)
    ∧ o.1.nextProc = s.nextProc ∧ (o.1.proc c.data).timeCounter
      = if timeOut ≠ infiniteTimeValue then s.fromNow timeOut else (s.proc c.data).timeCounter) = P
  -- an outcome that leaves the records alone does not block
  have hsame : ∀ o : Outcome, o.1.proc = s.proc → P o := by
    intro o ho
    rw [← hP]
    intro hwaits
    rw [Waiting, ho] at hwaits
    exact absurd hwaits hnot
  -- the state in which the call yields, for both services
  have hblocked : ∀ k, ¬ timeOut = 0 → ¬ s.timeOutInvalid timeOut = true →
      P ((s.waitOnPort index c.data timeOut).yieldToPartition c.data k) := by
    intro k hzero hinvalid
    rw [← hP]
    refine fun _ => ⟨timeOut_cases hinvalid hzero, rfl, ?_⟩
    obtain ⟨k', hk'⟩ := yield_proc (s.waitOnPort index c.data timeOut) c.data k c.data
    have hwaitOn : (s.waitOnPort index c.data timeOut).proc c.data = blockedRecord (.queuingPort index) true
        (if timeOut ≠ infiniteTimeValue then some (s.fromNow timeOut) else none) (s.proc c.data) :=
      Function.update_self _ _ _
    rw [hk', hwaitOn]
    unfold blockedRecord
    dsimp only
    split <;> rfl
  suffices h : P (s.exec (call.service queuingPortId timeOut)) by
    rw [← hP] at h
    exact h
  cases call with
  | send messageAddr length =>
      unfold PortCall.service exec sendQueuingMessage withCurrent
      dsimp only
      rw [hport, hc]
      dsimp only
      refine refused_elim (hsame _ rfl) fun hinvalid => refused_elim (hsame _ rfl) fun _ => ?_
      refine refused_elim (hsame _ rfl) fun _ => refused_elim (hsame _ rfl) fun _ => ?_
      cases hchannel : (s.res.queuingPorts index).channel with
      | none => exact hsame _ rfl
      | some ch =>
          dsimp only
          split
          · exact hsame _ rfl
          · refine refused_elim (hsame _ rfl) fun hzero => refused_elim (hsame _ rfl) fun _ => ?_
            exact hblocked _ hzero hinvalid
  | receive =>
      unfold PortCall.service exec receiveQueuingMessage withCurrent
      dsimp only
      rw [hport, hc]
      dsimp only
      refine refused_elim (hsame _ rfl) fun hinvalid => refused_elim (hsame _ rfl) fun _ => ?_
      cases hchannel : (s.res.queuingPorts index).channel with
      | none => exact hsame _ rfl
      | some ch =>
          dsimp only
          split
          · exact hsame _ rfl
          · refine refused_elim (hsame _ rfl) fun hzero => refused_elim (hsame _ rfl) fun _ => ?_
            exact hblocked _ hzero hinvalid

/-- A call that blocked returns at the turn of the loop that dispatches its process: the counter decides
    whether it uses the channel. -/
theorem portCall_returns {timeOut : Int} {c : Node} {r : Result}
    (hcontext : (s.proc p).context = call.context index timeOut)
    (hc : s.dispatched.processCurrent = some c) (hp : c.data = p)
    (hreturn : s.stepOutcome .loop = some (s', some r)) :
    ((s.dispatched.proc p).timeCounter = 0 ∧ r.returnCode = .timedOut)
      ∨ ((s.dispatched.proc p).timeCounter ≠ 0 ∧ r.returnCode = .noError
        ∧ (PortReady call index s.dispatched → Transfers call index s.dispatched s' r)) := by
  obtain ⟨c', hc', hresume⟩ := loop_returns hreturn
  rw [hc] at hc'
  cases hc'
  unfold resumeContext at hresume
  rw [hp, dispatched_context, hcontext] at hresume
  by_cases hzero : (s.dispatched.proc p).timeCounter = 0
  · refine Or.inl ⟨hzero, ?_⟩
    cases call with
    | send messageAddr length =>
        unfold PortCall.context at hresume
        dsimp only at hresume
        rw [if_pos hzero] at hresume
        cases hresume
        rfl
    | receive =>
        unfold PortCall.context at hresume
        dsimp only at hresume
        rw [if_pos hzero] at hresume
        cases hresume
        rfl
  · refine Or.inr ⟨hzero, ?_⟩
    cases hchannel : (s.dispatched.res.queuingPorts index).channel with
    | none =>
        cases call <;>
        · unfold PortCall.context at hresume
          dsimp only at hresume
          rw [if_neg hzero, hchannel] at hresume
          cases hresume
    | some ch =>
        suffices h : r.returnCode = .noError
            ∧ s'.krnl.queuingChannels = Function.update s.dispatched.krnl.queuingChannels ch
              (call.transfer (s.dispatched.krnl.queuingChannels ch))
            ∧ r.message = call.message (s.dispatched.krnl.queuingChannels ch)
            ∧ r.length = r.message.length by
          obtain ⟨hcode, hchannels⟩ := h
          refine ⟨hcode, ?_⟩
          rintro ⟨ch', hch', hready⟩
          rw [hchannel] at hch'
          cases hch'
          exact ⟨ch, hchannel, hready, hchannels⟩
        cases call with
        | send messageAddr length =>
            unfold PortCall.context at hresume
            dsimp only at hresume
            rw [if_neg hzero, hchannel] at hresume
            cases hresume
            refine ⟨rfl, ?_, rfl, rfl⟩
            split <;> rfl
        | receive =>
            unfold PortCall.context takeFromChannel at hresume
            dsimp only at hresume
            rw [if_neg hzero, hchannel] at hresume
            cases hresume
            refine ⟨rfl, ?_, ?_, rfl⟩
            · split <;> rfl
            · dsimp only
              split <;> rfl

/-! ## Who is woken -/

theorem wokenFirst_waiting_of_ne {q q' : WaitList} (h : q' ≠ q) :
    (s.wokenFirst q).waitingProcesses q' = s.waitingProcesses q' := by
  rcases wokenFirst_cases s q with ⟨-, hsame⟩ | ⟨p', hwake⟩
  · rw [hsame]
  · obtain ⟨rest, -, hwoken⟩ := wakeFirst_eq_some hwake
    rw [hwoken]
    exact Function.update_of_ne h _ _

/-- The check of the ports never takes a process out of the queue of a source port: its first test is false
    for every size a port can be created with, and its second is for destinations. -/
theorem checkPortsFrom_source (n i : Nat) (t : Pcb)
    (hdirection : (t.res.queuingPorts index).portDirection = .source)
    (hsize : (t.res.queuingPorts index).maxMessageSize ≠ 0) :
    (checkPortsFrom i n t).waitingProcesses (.queuingPort index)
      = t.waitingProcesses (.queuingPort index) := by
  induction n generalizing i t with
  | zero => rfl
  | succ n ih =>
      rw [checkPortsFrom]
      split
      · rfl
      · next c hc =>
          have hres := checkPort_res t i c
          rw [ih _ _ (by rw [hres]; exact hdirection) (by rw [hres]; exact hsize), checkPort_eq]
          by_cases hi : i = index
          · subst hi
            have hsource : ¬ (0 < (t.krnl.queuingChannels c).currentNbMessages
                ∧ (t.res.queuingPorts i).portDirection = .destination) := by
              rw [hdirection]
              rintro ⟨-, h⟩
              cases h
            rw [if_neg hsource, if_neg fun h => hsize h.2]
          · have hne : WaitList.queuingPort index ≠ .queuingPort i := by
              intro h
              cases h
              exact hi rfl
            split_ifs
            · rw [wokenFirst_waiting_of_ne hne, wokenFirst_waiting_of_ne hne]
            · exact wokenFirst_waiting_of_ne hne
            · exact wokenFirst_waiting_of_ne hne
            · rfl

/-- A blocked sender is never woken because there is room. -/
theorem sender_never_woken {u : Pcb} {messageAddr : Area} {length : Int}
    (hdirection : (u.res.queuingPorts index).portDirection = .source)
    (hsize : (u.res.queuingPorts index).maxMessageSize ≠ 0) :
    ¬ WokenByPort (.send messageAddr length) p index u := by
  intro hwoken
  obtain ⟨rest, hlist, hrest⟩ := hwoken.first
  obtain ⟨proc, hticked⟩ := ticked_eq u
  have hsame : u.newTick.waitingProcesses (.queuingPort index)
      = u.ticked.waitingProcesses (.queuingPort index) := by
    refine checkPortsFrom_source _ _ _ ?_ ?_
    · change (u.ticked.res.queuingPorts index).portDirection = .source
      rw [hticked]
      exact hdirection
    · change (u.ticked.res.queuingPorts index).maxMessageSize ≠ 0
      rw [hticked]
      exact hsize
  rw [hsame, hlist] at hrest
  exact List.cons_ne_self _ _ hrest

/-! ## When the call reports truly -/

/-- The counter while the process is blocked at the port. -/
theorem BlocksOnPort.waitsWith {queuingPortId timeOut : Int}
    (h : BlocksOnPort call p index queuingPortId timeOut s s') (hsound : Sound s) (hqueues : Queues s) :
    WaitsWith p (s'.proc p).timeCounter false s' := by
  refine ⟨?_, fun _ => ⟨rfl, fun hf => Bool.noConfusion hf⟩⟩
  obtain ⟨c, hc, hd⟩ := h.caller
  rw [(h.record hsound).2.1]
  exact hqueues.allocated p (Or.inr (Or.inl ⟨c, hc, hd⟩))

/-- A wait that its time-out ends is not ended by the port. -/
theorem Expires.not_woken {deadline : Int} {u : Pcb} (h : Expires p deadline u)
    (htimer : (u.proc p).timeCounter = deadline) (hpositive : 0 < deadline) :
    ¬ WokenByPort call p index u := by
  intro hwoken
  have hwaits := hwoken.waits
  rw [Waiting, (h.ticked htimer hpositive).1] at hwaits
  cases hwaits

/-- A call that blocked reports its end truly exactly when its own time-out has ended it, or its port has
    and, when the process goes on, the counter is not 0 and the channel is still ready. -/
theorem portCall_reports_iff (period identifier : Int) (conf : PartitionConf) (maxErrors : Nat)
    (krnl : Krnl) (memory : Nat → Process) (lastTick : Nat) {es₀ es : List Action}
    {s₀ s₁ s₂ s₃ : Pcb} {queuingPortId timeOut : Int} {c : Node} {r : Result}
    (hrun : Transition.run step
      (partitionInit period identifier conf maxErrors krnl memory lastTick).startPartitionOs es₀ = some s₀)
    (hcall : BlocksOnPort call p index queuingPortId timeOut s₀ s₁)
    (hwait : Transition.GuardedRun step (NotBy p) s₁ es s₂)
    (hcontext : (s₂.proc p).context = call.context index timeOut)
    (hc : s₂.dispatched.processCurrent = some c) (hp : c.data = p)
    (hreturn : s₂.stepOutcome .loop = some (s₃, some r)) :
    ReportsPort r.returnCode timeOut
        (EndedByTimeOut p timeOut (s₀.fromNow timeOut) s₁ (es ++ [.loop]))
        (EndedByPort call p index s₁ (es ++ [.loop]))
        (Transfers call index s₂.dispatched s₃ r)
      ↔ EndedByTimeOut p timeOut (s₀.fromNow timeOut) s₁ (es ++ [.loop])
        ∨ EndedByPort call p index s₁ (es ++ [.loop])
          ∧ (s₂.dispatched.proc p).timeCounter ≠ 0 ∧ PortReady call index s₂.dispatched := by
  obtain ⟨hsound, hqueues⟩ := queues_of_run period identifier conf maxErrors krnl memory lastTick hrun
  have hsound₁ := hsound.step hcall.call
  obtain ⟨hfinite, -, htimer⟩ := hcall.record hsound
  obtain ⟨hctl, hnot⟩ := not_starting_of_returns hreturn
  have hwaits := hcall.waitsWith hsound hqueues
  -- a wait that its time-out ends is reported as that, and is not ended by the port
  have hexpired : EndedByTimeOut p timeOut (s₀.fromNow timeOut) s₁ (es ++ [.loop]) →
      (s₂.dispatched.proc p).timeCounter = 0 ∧ ¬ EndedByPort call p index s₁ (es ++ [.loop]) := by
    rintro ⟨hne, u, hends, hexpires⟩
    rw [htimer, if_pos hne] at hwaits
    have hpositive := fromNow_pos (s := s₀) hfinite hne
    refine ⟨(expired_dispatched hwaits hsound₁ hwait hctl hnot hends hexpires hpositive).timer, ?_⟩
    rintro ⟨u', hends', hwoken⟩
    obtain ⟨rfl, -⟩ := hends.unique hends'
    -- in `u` the process waits, with the counter of the call
    rcases hends.snoc_cases hwait with hbefore | ⟨rfl, -, hin, hguarded⟩
    · obtain ⟨es₁, es₂, u', hguarded, hin, -⟩ := hbefore.split hwait
      exact hexpires.not_woken (((hwaits.run hsound₁ hguarded).2.waits hin).1) hpositive hwoken
    · exact hexpires.not_woken (((hwaits.run hsound₁ hguarded).2.waits hin).1) hpositive hwoken
  rcases portCall_returns hcontext hc hp hreturn with ⟨hzero, hcode⟩ | ⟨hrunning, hcode, htransfers⟩
  · rw [hcode]
    refine ⟨fun hreports => Or.inl (hreports.timedOut.mp rfl), ?_⟩
    rintro (hended | ⟨-, hrunning, -⟩)
    · obtain ⟨-, hport⟩ := hexpired hended
      refine ⟨iff_of_false ReturnCode.noConfusion hport, fun h => absurd h hport,
        iff_of_true rfl hended, fun hinf => absurd hinf hended.1⟩
    · exact absurd hzero hrunning
  · rw [hcode]
    refine ⟨fun hreports => Or.inr ?_, ?_⟩
    · have hended := hreports.noError.mp rfl
      obtain ⟨ch, hch, hready, -⟩ := hreports.transferred hended
      exact ⟨hended, hrunning, ch, hch, hready⟩
    · rintro (hended | ⟨hended, -, hready⟩)
      · exact absurd (hexpired hended).1 hrunning
      · refine ⟨iff_of_true rfl hended, fun _ => htransfers hready,
          iff_of_false ReturnCode.noConfusion fun h => hrunning (hexpired h).1, fun _ h => (nomatch h)⟩

/-- The partition creates the port of the commands channel; its only process executes. -/
def receiver : List Action :=
  [.loop, .call (.createQueuingPort "P1_IN_CMDS".toList 32 10 1 0),
    .call (.createProcess (aperiodicProcess "A".toList 50)), .call (.start 1),
    .call (.setPartitionMode 3), .loop]

/-- A channel with one message of one byte. -/
def oneMessage : QueuingChannel := { channelCmds with
  bufferData := fun _ => 7
  bufferSizes := fun _ => 1
  currentNbMessages := 1
  writeIndex := 1 }

/-- The other partition has sent that message. -/
def messageAt (uptime ticks : Nat) : Action :=
  .kernel uptime ticks 0 0 (fun _ => channelTemperature) fun _ => oneMessage

theorem portCall_reports_message :
    ∃ s₀ s₁ s₂ s₃ r, Transition.run step (defaultPartition 1) receiver = some s₀
      ∧ BlocksOnPort .receive 0 0 1 1000 s₀ s₁ ∧ Transition.run step s₁ [messageAt 20 2] = some s₂
      ∧ s₂.stepOutcome .loop = some (s₃, some r)
      ∧ ReportsPort r.returnCode 1000 (EndedByTimeOut 0 1000 (s₀.fromNow 1000) s₁ [messageAt 20 2, .loop])
        (EndedByPort .receive 0 0 s₁ [messageAt 20 2, .loop])
        (Transfers .receive 0 s₂.dispatched s₃ r) := by
  have hrun : ((Transition.run step (defaultPartition 1) receiver).bind fun s₀ =>
      (s₀.step (.call (.receiveQueuingMessage 1 1000))).bind fun s₁ => (s₁.step (messageAt 20 2)).bind fun s₂ =>
        (s₂.stepOutcome .loop).map fun o => (s₀.processCurrent, s₀.findQueuingPortById 1, s₁.ctl,
          (s₁.proc 0).processState, o.2.isSome, (o.1.proc 0).processState))
      = some (some ⟨0, 0⟩, some 0, .partitionOs, .waiting, true, .running) := by decide
  have hports : ((Transition.run step (defaultPartition 1) receiver).bind fun s₀ =>
      (s₀.step (.call (.receiveQueuingMessage 1 1000))).bind fun s₁ => (s₁.step (messageAt 20 2)).map fun s₂ =>
        ((s₂.res.queuingPorts 0).channel, s₂.dispatched.processCurrent,
          (s₂.dispatched.res.queuingPorts 0).channel, (s₂.dispatched.proc 0).timeCounter))
      = some (some 0, some ⟨0, 0⟩, some 0, 1000) := by decide
  have hlists : ((Transition.run step (defaultPartition 1) receiver).bind fun s₀ =>
      (s₀.step (.call (.receiveQueuingMessage 1 1000))).bind fun s₁ => (s₁.step (messageAt 20 2)).map fun s₂ =>
        ((s₂.proc 0).processState, (s₂.ticked.proc 0).processState,
          s₂.ticked.waitingProcesses (.queuingPort 0), s₂.newTick.waitingProcesses (.queuingPort 0)))
      = some (.waiting, .waiting, [0], []) := by decide
  have hcontext : ((Transition.run step (defaultPartition 1) receiver).bind fun s₀ =>
      (s₀.step (.call (.receiveQueuingMessage 1 1000))).bind fun s₁ => (s₁.step (messageAt 20 2)).map fun s₂ =>
        ((s₂.proc 0).context, (s₂.krnl.ticks, s₂.lastTick), (s₂.krnl.queuingChannels 0).currentNbMessages,
          (s₂.dispatched.krnl.queuingChannels 0).currentNbMessages))
      = some (.receiveQueuingMessage 0 1000, (2, 0), 1, 1) := rfl
  obtain ⟨s₀, hs₀, hrun⟩ := Option.bind_eq_some_iff.mp hrun
  obtain ⟨s₁, hs₁, hrun⟩ := Option.bind_eq_some_iff.mp hrun
  obtain ⟨s₂, hs₂, hrun⟩ := Option.bind_eq_some_iff.mp hrun
  obtain ⟨⟨s₃, result⟩, hreturn, hfields⟩ := Option.map_eq_some_iff.mp hrun
  rw [hs₀, Option.bind_some, hs₁, Option.bind_some, hs₂, Option.map_some, Option.some.injEq]
    at hports hlists hcontext
  simp only [Prod.mk.injEq] at hfields hports hlists hcontext
  obtain ⟨hcurrent, hport, hctl, hblocked, hsome, hready⟩ := hfields
  obtain ⟨hchannel, hdispatched, hchannel', htimer⟩ := hports
  obtain ⟨hwaits, hticked, hlist, hrest⟩ := hlists
  obtain ⟨hcontext, ⟨hticks, hlast⟩, hcount, hcount'⟩ := hcontext
  obtain ⟨r, rfl⟩ := Option.isSome_iff_exists.mp hsome
  have hcall : BlocksOnPort .receive 0 0 1 1000 s₀ s₁ := ⟨⟨⟨0, 0⟩, hcurrent, rfl⟩, hport, hs₁, hblocked⟩
  have hnotBy : NotBy 0 s₁ (messageAt 20 2) := by
    refine ⟨fun hcalls => ?_, id⟩
    rcases hcalls.1 with hprocess | hmain
    · rw [hctl] at hprocess
      cases hprocess
    · rw [hctl] at hmain
      cases hmain
  have hlastStep : s₂.step .loop = some s₃ := by
    unfold step
    rw [hreturn]
    rfl
  have hwait : Transition.GuardedRun step (NotBy 0) s₁ [messageAt 20 2] s₂ := .cons hnotBy hs₂ (.nil s₂)
  refine ⟨s₀, s₁, s₂, s₃, r, hs₀, hcall, hwait.run_eq, hreturn, ?_⟩
  refine (portCall_reports_iff 50 1 defaultPartitionConf 10 defaultKrnl
    (fun _ => zeroProcess) 0 hs₀ hcall hwait hcontext hdispatched rfl hreturn).mpr (Or.inr ⟨?_, ?_, ?_⟩)
  · refine ⟨s₂, .later hblocked hs₂ (.here hwaits hlastStep fun hstill => ?_), ⟨?_, hticked, ⟨[], hlist, hrest⟩,
      ⟨0, hchannel, ?_⟩⟩⟩
    · rw [Waiting, hready] at hstill
      cases hstill
    · rw [hticks, hlast]
      decide
    · rw [PortCall.Ready, hcount]
      exact Nat.one_pos
  · rw [htimer]
    decide
  · refine ⟨0, hchannel', ?_⟩
    rw [PortCall.Ready, hcount']
    exact Nat.one_pos

/-- A process that has never waited before waits for a message without a time-out. The message comes, the
    port wakes it, and it is told of a time-out; the message stays in the channel. -/
theorem woken_receiver_times_out :
    ∃ s₀ s₁ s₂ s₃ r, Transition.run step (defaultPartition 1) receiver = some s₀
      ∧ BlocksOnPort .receive 0 0 1 infiniteTimeValue s₀ s₁ ∧ s₁.step (messageAt 20 2) = some s₂
      ∧ s₂.stepOutcome .loop = some (s₃, some r) ∧ r.returnCode = .timedOut
      ∧ EndedByPort .receive 0 0 s₁ [messageAt 20 2, .loop]
      ∧ (s₃.krnl.queuingChannels 0).currentNbMessages = 1 := by
  have hrun : ((Transition.run step (defaultPartition 1) receiver).bind fun s₀ =>
      (s₀.step (.call (.receiveQueuingMessage 1 infiniteTimeValue))).bind fun s₁ =>
        (s₁.step (messageAt 20 2)).bind fun s₂ => (s₂.stepOutcome .loop).map fun o => (s₀.processCurrent,
          s₀.findQueuingPortById 1, (s₁.proc 0).processState, o.2.map Result.returnCode,
          (o.1.proc 0).processState))
      = some (some ⟨0, 0⟩, some 0, .waiting, some .timedOut, .running) := by decide
  have hlists : ((Transition.run step (defaultPartition 1) receiver).bind fun s₀ =>
      (s₀.step (.call (.receiveQueuingMessage 1 infiniteTimeValue))).bind fun s₁ =>
        (s₁.step (messageAt 20 2)).map fun s₂ => ((s₂.proc 0).processState,
          (s₂.ticked.proc 0).processState, s₂.ticked.waitingProcesses (.queuingPort 0),
          s₂.newTick.waitingProcesses (.queuingPort 0)))
      = some (.waiting, .waiting, [0], []) := by decide
  have hchannel : ((Transition.run step (defaultPartition 1) receiver).bind fun s₀ =>
      (s₀.step (.call (.receiveQueuingMessage 1 infiniteTimeValue))).bind fun s₁ =>
        (s₁.step (messageAt 20 2)).bind fun s₂ => (s₂.step .loop).map fun s₃ =>
          ((s₂.krnl.ticks, s₂.lastTick), (s₂.res.queuingPorts 0).channel,
            (s₂.krnl.queuingChannels 0).currentNbMessages, (s₃.krnl.queuingChannels 0).currentNbMessages))
      = some ((2, 0), some 0, 1, 1) := by decide
  obtain ⟨s₀, hs₀, hrun⟩ := Option.bind_eq_some_iff.mp hrun
  obtain ⟨s₁, hs₁, hrun⟩ := Option.bind_eq_some_iff.mp hrun
  obtain ⟨s₂, hs₂, hrun⟩ := Option.bind_eq_some_iff.mp hrun
  obtain ⟨⟨s₃, result⟩, hreturn, hfields⟩ := Option.map_eq_some_iff.mp hrun
  have hlastStep : s₂.step .loop = some s₃ := by
    unfold step
    rw [hreturn]
    rfl
  rw [hs₀, Option.bind_some, hs₁, Option.bind_some, hs₂, Option.map_some, Option.some.injEq] at hlists
  rw [hs₀, Option.bind_some, hs₁, Option.bind_some, hs₂, Option.bind_some, hlastStep, Option.map_some,
    Option.some.injEq] at hchannel
  simp only [Prod.mk.injEq] at hfields hlists hchannel
  obtain ⟨hcurrent, hport, hblocked, hcode, hready⟩ := hfields
  obtain ⟨hwaits, hticked, hlist, hrest⟩ := hlists
  obtain ⟨⟨hticks, hlast⟩, hchannel, hcount, hstays⟩ := hchannel
  obtain ⟨r, rfl, hr⟩ := Option.map_eq_some_iff.mp hcode
  refine ⟨s₀, s₁, s₂, s₃, r, hs₀, ⟨⟨⟨0, 0⟩, hcurrent, rfl⟩, hport, hs₁, hblocked⟩, hs₂, hreturn, hr, ?_, hstays⟩
  refine ⟨s₂, .later hblocked hs₂ (.here hwaits hlastStep fun hstill => ?_), ⟨?_, hticked, ⟨[], hlist, hrest⟩,
    ⟨0, hchannel, ?_⟩⟩⟩
  · rw [Waiting, hready] at hstill
    cases hstill
  · rw [hticks, hlast]
    decide
  · rw [PortCall.Ready, hcount]
    exact Nat.one_pos

end Pcb

end UcxArinc
