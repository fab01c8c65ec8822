import UcxArinc.Proofs.EventWaits
import UcxArinc.Proofs.PortWakeUps
import UcxArinc.Proofs.QueuingChannels

set_option autoImplicit false

/-! # Sends that do not block

`SEND_BUFFER` and `SEND_QUEUING_MESSAGE` with `TIME_OUT` 0, `DISPLAY_BLACKBOARD` and
`WRITE_SAMPLING_MESSAGE`: a message of a length that the resource admits is taken if there is room for it,
and whatever is not taken leaves no trace. That a reader waits at a buffer means there is room: the buffer
is then empty, in every state a partition reaches. -/

namespace UcxArinc

namespace Pcb

variable {s s' : Pcb} {i : Nat} {sends : Prop}

/-! ## Readers wait at empty buffers -/

/-- Nobody waits to receive from a buffer that holds a message, and every buffer created holds one message
    at least. -/
structure ReadersServed (s : Pcb) : Prop where
  nobody : ∀ i, 0 < (s.res.buffers i).nbMessage → s.waitingProcesses (.bufferReaders i) = []
  capacity : ∀ i < s.res.bufferCount, 0 < (s.res.buffers i).maxNbMessage

/-- The call of `SEND_BUFFER`. -/
def SendsToBuffer : Action → Prop
  | .call (.sendBuffer _ _ _ _) => True
  | _ => False

/-- What a step does to the buffers: a first message is stored by a send while no reader waits, and each buffer
    has room for one message at least if it had. -/
structure BufferStep (sends : Prop) (s s' : Pcb) : Prop where
  stored : ∀ i, 0 < (s'.res.buffers i).nbMessage → 0 < (s.res.buffers i).nbMessage
    ∨ (sends ∧ s.waitingProcesses (.bufferReaders i) = [])
  capacity : (∀ i < s.res.bufferCount, 0 < (s.res.buffers i).maxNbMessage) →
    ∀ i < s'.res.bufferCount, 0 < (s'.res.buffers i).maxNbMessage

theorem BufferStep.same (hbuffers : s'.res.buffers = s.res.buffers)
    (hcount : s'.res.bufferCount = s.res.bufferCount) : BufferStep sends s s' := by
  refine ⟨fun i hpos => Or.inl (by rwa [hbuffers] at hpos), fun hall i hi => ?_⟩
  rw [hbuffers]
  exact hall i (hcount ▸ hi)

theorem BufferStep.ofStores (h : s'.stores.buffers = s.stores.buffers) : BufferStep sends s s' :=
  .same (congrArg (fun x => x.1) h) (congrArg (fun x => x.2.1) h)

/-- A buffer record is rewritten. -/
theorem BufferStep.update (index : Nat) {buf : Buffer} (hcount : s'.res.bufferCount = s.res.bufferCount)
    (h : s'.res.buffers = Function.update s.res.buffers index buf)
    (hstored : 0 < buf.nbMessage → 0 < (s.res.buffers index).nbMessage
      ∨ (sends ∧ s.waitingProcesses (.bufferReaders index) = []))
    (hsize : buf.maxNbMessage = (s.res.buffers index).maxNbMessage) : BufferStep sends s s' := by
  refine ⟨fun i hpos => ?_, fun hall i hi => ?_⟩
  · by_cases hindex : i = index
    · rw [h, hindex, Function.update_self] at hpos
      exact hindex ▸ hstored hpos
    · rw [h, Function.update_of_ne hindex] at hpos
      exact Or.inl hpos
  · rw [hcount] at hi
    by_cases hindex : i = index
    · rw [h, hindex, Function.update_self, hsize]
      exact hall index (hindex ▸ hi)
    · rw [h, Function.update_of_ne hindex]
      exact hall i hi

/-- A process that waits leaves the buffers alone. -/
theorem BufferStep.blocked {t : Pcb} (ht : t.stores = s.stores) (p : Nat) (q : WaitList) (linked : Bool)
    (discipline : QueuingDiscipline) (timer : Option Int) (k : Context) :
    BufferStep sends s ((t.waitOn p q linked discipline timer).yieldToPartition p k).1 := by
  have hstores := (blocked_stores (s := t) p q linked discipline timer k).trans ht
  exact .ofStores (congrArg Stores.buffers hstores)

theorem createBuffer_bufferStep (name : Name) (maxMessageSize maxNbMessage discipline : Int) :
    BufferStep False s (s.createBuffer name maxMessageSize maxNbMessage discipline).1 := by
  have hret : ∀ rc, BufferStep False s (s.ret rc).1 := fun _ => .same rfl rfl
  unfold createBuffer
  refine refused_elim (P := fun o => BufferStep False s o.1) (hret _) fun _ => ?_
  refine refused_elim (P := fun o => BufferStep False s o.1) (hret _) fun _ => ?_
  refine refused_elim (P := fun o => BufferStep False s o.1) (hret _) fun _ => ?_
  refine refused_elim (P := fun o => BufferStep False s o.1) (hret _) fun hpos => ?_
  split
  · exact hret _
  · refine refused_elim (P := fun o => BufferStep False s o.1) (hret _) fun _ => ?_
    refine ⟨fun i hstored => ?_, fun hall i hi => ?_⟩
    · change 0 < (Function.update s.res.buffers s.res.bufferCount _ i).nbMessage at hstored
      by_cases hnew : i = s.res.bufferCount
      · rw [hnew, Function.update_self] at hstored
        exact absurd hstored (lt_irrefl 0)
      · rw [Function.update_of_ne hnew] at hstored
        exact Or.inl hstored
    · change 0 < (Function.update s.res.buffers s.res.bufferCount _ i).maxNbMessage
      change i < s.res.bufferCount + 1 at hi
      by_cases hnew : i = s.res.bufferCount
      · rw [hnew, Function.update_self]
        exact not_le.mp hpos
      · rw [Function.update_of_ne hnew]
        exact hall i (by omega)

theorem sendBuffer_bufferStep (bufferId : Int) (messageAddr : Area) (length timeOut : Int) :
    BufferStep True s (s.sendBuffer bufferId messageAddr length timeOut).1 := by
  have hret : ∀ rc, BufferStep True s (s.ret rc).1 := fun _ => .same rfl rfl
  unfold sendBuffer
  split
  · exact hret _
  · next index _ =>
      dsimp only
      refine refused_elim (P := fun o => BufferStep True s o.1) (hret _) fun _ => ?_
      refine refused_elim (P := fun o => BufferStep True s o.1) (hret _) fun _ => ?_
      refine refused_elim (P := fun o => BufferStep True s o.1) (hret _) fun _ => ?_
      refine withCurrent_elim (P := fun o => BufferStep True s o.1) (.same rfl rfl) fun node _ => ?_
      split
      · split
        · next hnone =>
            exact .update index rfl rfl (fun _ => Or.inr ⟨trivial, wakeFirst_eq_none.mp hnone⟩) rfl
        · next reader t hwake =>
            have hstores := wakeFirst_stores hwake
            have hbuffers : t.res.buffers = s.res.buffers := congrArg (fun x => x.buffers.1) hstores
            have hcount : t.res.bufferCount = s.res.bufferCount := congrArg (fun x => x.buffers.2.1) hstores
            exact .same hbuffers hcount
      · refine refused_elim (P := fun o => BufferStep True s o.1) (hret _) fun _ => ?_
        refine refused_elim (P := fun o => BufferStep True s o.1) (hret _) fun _ => ?_
        split
        · exact .blocked (modProc_stores _ _ _) _ _ _ _ _ _
        · exact .blocked (modProc_stores _ _ _) _ _ _ _ _ _

theorem receiveBuffer_bufferStep (bufferId timeOut : Int) (messageAddr : Area) :
    BufferStep False s (s.receiveBuffer bufferId timeOut messageAddr).1 := by
  have hret : ∀ rc, BufferStep False s (s.ret rc).1 := fun _ => .same rfl rfl
  unfold receiveBuffer
  split
  · exact hret _
  · next index _ =>
      refine refused_elim (P := fun o => BufferStep False s o.1) (hret _) fun _ => ?_
      refine withCurrent_elim (P := fun o => BufferStep False s o.1) (.same rfl rfl) fun node _ => ?_
      dsimp only
      split
      · next hsome =>
          split
          · exact .update index rfl rfl (fun _ => Or.inl hsome) rfl
          · next writer t hwake =>
              -- the writer's message goes where one has just been taken out
              have hstores := wakeFirst_stores hwake
              have htaken : t.res.buffers = (s.takeMessage index node.data).res.buffers :=
                congrArg (fun x => x.buffers.1) hstores
              have hcount : t.res.bufferCount = s.res.bufferCount := congrArg (fun x => x.buffers.2.1) hstores
              have hafter : ∀ buf, Function.update t.res.buffers index buf
                  = Function.update s.res.buffers index buf := by
                intro buf
                rw [htaken]
                exact Function.update_idem _ _ _
              refine .update _ hcount (hafter _) (fun _ => Or.inl hsome) ?_
              show (t.res.buffers index).maxNbMessage = _
              rw [htaken]
              show (Function.update s.res.buffers index _ index).maxNbMessage = _
              rw [Function.update_self]
      · refine refused_elim (P := fun o => BufferStep False s o.1) (hret _) fun _ => ?_
        refine refused_elim (P := fun o => BufferStep False s o.1) (hret _) fun _ => ?_
        split
        · exact .blocked (modProc_stores _ _ _) _ _ _ _ _ _
        · exact .blocked (modProc_stores _ _ _) _ _ _ _ _ _

/-- The rest of a service leaves the buffers alone. -/
theorem resumeContext_buffers (s : Pcb) (p : Nat) : (s.resumeContext p).1.res.buffers = s.res.buffers
    ∧ (s.resumeContext p).1.res.bufferCount = s.res.bufferCount := by
  have hstores := resumeContext_stores s p
  cases hk : (s.proc p).context with
  | receiveBufferDone index message length =>
      unfold resumeContext
      rw [hk]
      exact ⟨rfl, rfl⟩
  | receiveBuffer index timed =>
      unfold resumeContext
      rw [hk]
      dsimp only
      split
      · exact ⟨rfl, rfl⟩
      · exact ⟨rfl, rfl⟩
  | _ =>
      rw [hk] at hstores
      exact ⟨congrArg (fun x : Stores => x.buffers.1) hstores, congrArg (fun x : Stores => x.buffers.2.1) hstores⟩

/-- Every step is such a step. -/
theorem bufferStep {e : Action} (hstep : s.step e = some s') : BufferStep (SendsToBuffer e) s s' := by
  have hstores := congrArg Stores.buffers (step_stores hstep)
  cases e with
  | call service =>
      obtain ⟨-, rfl⟩ := call_eq_some hstep
      cases service with
      | createBuffer name size number discipline => exact createBuffer_bufferStep name size number discipline
      | sendBuffer bufferId messageAddr length timeOut =>
          exact sendBuffer_bufferStep bufferId messageAddr length timeOut
      | receiveBuffer bufferId timeOut messageAddr => exact receiveBuffer_bufferStep bufferId timeOut messageAddr
      | _ => exact .ofStores hstores
  | loop =>
      obtain ⟨-, rfl⟩ := loop_eq_some hstep
      have hloop := partitionOsLoop_stores s
      cases hresumed : s.resumedContext with
      | none =>
          rw [hresumed] at hloop
          exact .ofStores (congrArg Stores.buffers hloop)
      | some k =>
          obtain ⟨node, -, -, hresume⟩ := resumedContext_eq_some hresumed
          have hdispatched := dispatched_stores s
          have hsame := resumeContext_buffers { s.dispatched with ctl := .process } node.data
          rw [hresume]
          exact .same (hsame.1.trans (congrArg (fun x => x.buffers.1) hdispatched))
            (hsame.2.trans (congrArg (fun x => x.buffers.2.1) hdispatched))
  | _ => exact .ofStores hstores

/-- A step serves the readers of the buffers. -/
theorem ReadersServed.step {e : Action} (h : ReadersServed s) (hsound : Sound s) (hstep : s.step e = some s') :
    ReadersServed s' := by
  have hbuffers := bufferStep hstep
  refine ⟨fun i hpos => ?_, hbuffers.capacity h.capacity⟩
  -- the list was empty, and a send does not join it
  have hempty : s.waitingProcesses (.bufferReaders i) = [] := (hbuffers.stored i hpos).elim (h.nobody i) And.right
  have hmoves : Moves (onlyBlocks fun _ _ q _ => q ≠ .bufferReaders i) s s' := by
    refine step_moves hsound.running (permits_onlyBlocks fun service hservice c _ t _ q hblocks _ hq => ?_) hstep
    subst hq
    obtain ⟨hnone, bufferId, timeOut, messageAddr, rfl⟩ := hblocks.awaited
    rcases hbuffers.stored i hpos with hsome | ⟨hsends, -⟩
    · exact absurd hnone (not_le.mpr hsome)
    · rw [hservice] at hsends
      exact hsends
  have hlist := sublist_of_moves hmoves
  rw [hempty] at hlist
  exact List.sublist_nil.mp hlist

theorem readersServed_of_run (period identifier : Int) (conf : PartitionConf) (maxErrors : Nat) (krnl : Krnl)
    (memory : Nat → Process) (lastTick : Nat) {es : List Action}
    (hrun : Transition.run Pcb.step
      (partitionInit period identifier conf maxErrors krnl memory lastTick).startPartitionOs es = some s) :
    ReadersServed s := by
  have hinit : ReadersServed
      (partitionInit period identifier conf maxErrors krnl memory lastTick).startPartitionOs := by
    have hbuffers := congrArg Stores.buffers
      (startPartitionOs_stores (partitionInit period identifier conf maxErrors krnl memory lastTick))
    have hstep : BufferStep False (partitionInit period identifier conf maxErrors krnl memory lastTick)
      (partitionInit period identifier conf maxErrors krnl memory lastTick).startPartitionOs := .ofStores hbuffers
    refine ⟨fun i hpos => ?_, hstep.capacity fun i hi => absurd hi (Nat.not_lt_zero i)⟩
    rcases hstep.stored i hpos with hsome | ⟨hfalse, -⟩
    · exact absurd hsome (lt_irrefl 0)
    · exact hfalse.elim
  exact (Transition.run_invariant (I := fun s => Sound s ∧ ReadersServed s) hrun
    (fun s e s' h hs => ⟨h.1.step hs, h.2.step h.1 hs⟩)
    ⟨sound_startPartitionOs period identifier conf maxErrors krnl memory lastTick, hinit⟩).2

/-! ## The four services -/

/-- A send that does not block. -/
inductive Send
  | sendBuffer (bufferId : Int) (messageAddr : Area) (length : Int)
  | sendQueuingMessage (queuingPortId : Int) (messageAddr : Area) (length : Int)
  | displayBlackboard (blackboardId : Int) (messageAddr : Area) (length : Int)
  | writeSamplingMessage (samplingPortId : Int) (messageAddr : Area) (length : Int)

namespace Send

/-- The call, with `TIME_OUT` 0 where there is one. -/
def service : Send → Service
  | .sendBuffer bufferId messageAddr length => .sendBuffer bufferId messageAddr length 0
  | .sendQueuingMessage queuingPortId messageAddr length =>
    .sendQueuingMessage queuingPortId messageAddr length 0
  | .displayBlackboard blackboardId messageAddr length => .displayBlackboard blackboardId messageAddr length
  | .writeSamplingMessage samplingPortId messageAddr length =>
    .writeSamplingMessage samplingPortId messageAddr length

/-- `LENGTH`. -/
def length : Send → Int
  | .sendBuffer _ _ length | .sendQueuingMessage _ _ length | .displayBlackboard _ _ length
  | .writeSamplingMessage _ _ length => length

/-- The call names resource `i`; a port is a source, and the routing table has given it a channel. -/
def Names (s : Pcb) (i : Nat) : Send → Prop
  | .sendBuffer bufferId _ _ => s.findBufferById bufferId = some i
  | .sendQueuingMessage queuingPortId _ _ => s.findQueuingPortById queuingPortId = some i
    ∧ (s.res.queuingPorts i).portDirection = .source ∧ (s.res.queuingPorts i).channel ≠ none
  | .displayBlackboard blackboardId _ _ => s.findBlackboardById blackboardId = some i
  | .writeSamplingMessage samplingPortId _ _ => s.findSamplingPortById samplingPortId = some i
    ∧ (s.res.samplingPorts i).portDirection = .source ∧ (s.res.samplingPorts i).channel ≠ none

/-- The `MAX_MESSAGE_SIZE` of the resource. -/
def maxMessageSize (s : Pcb) (i : Nat) : Send → Int
  | .sendBuffer _ _ _ => (s.res.buffers i).maxMessageSize
  | .sendQueuingMessage _ _ _ => (s.res.queuingPorts i).maxMessageSize
  | .displayBlackboard _ _ _ => (s.res.blackboards i).maxMessageSize
  | .writeSamplingMessage _ _ _ => (s.res.samplingPorts i).maxMessageSize

/-- There is room for a message, or a reader waits for one. -/
def HasRoom (s : Pcb) (i : Nat) : Send → Prop
  | .sendBuffer _ _ _ => (s.res.buffers i).nbMessage < (s.res.buffers i).maxNbMessage
    ∨ s.waitingProcesses (.bufferReaders i) ≠ []
  | .sendQueuingMessage _ _ _ => ∀ c, (s.res.queuingPorts i).channel = some c →
    (s.krnl.queuingChannels c).currentNbMessages < (s.krnl.queuingChannels c).maxNbMessages
  | _ => True

/-- Processes wait already to send at the port: a send does not overtake them. -/
def Queued (s : Pcb) (i : Nat) : Send → Prop
  | .sendQueuingMessage _ _ _ => s.waitingProcesses (.queuingPort i) ≠ []
  | _ => False

/-- The length is `MAX_MESSAGE_SIZE`, which the two services that test with `>=` refuse. -/
def AtLimit (s : Pcb) (i : Nat) : Send → Prop
  | .sendBuffer _ _ length => length = (s.res.buffers i).maxMessageSize
  | .sendQueuingMessage _ _ length => length = (s.res.queuingPorts i).maxMessageSize
  | _ => False

/-- The call comes to follow `process_current`. -/
def FollowsCurrent (s : Pcb) (i : Nat) : Send → Prop
  | .sendBuffer _ _ _ | .sendQueuingMessage _ _ _ => True
  | .displayBlackboard _ _ _ => 0 < s.waitingCount (.blackboard, i)
  | .writeSamplingMessage _ _ _ => False

end Send

/-- The call returns `NO_ERROR`, at once or, where it has yielded, when its process is resumed. -/
def ReturnsNoError (s : Pcb) (o : Outcome) : Prop :=
  succeeds o = true ∨ (o.1.ctl = .partitionOs ∧ o.2 = none ∧ ∃ c, s.processCurrent = some c
    ∧ ∀ t : Pcb, (t.proc c.data).context = (o.1.proc c.data).context →
      succeeds (t.resumeContext c.data) = true)

/-- A call that is refused, and leaves everything as it was. -/
theorem refused_unchanged {rc : ReturnCode} (hrc : rc ≠ .noError) : ¬ ReturnsNoError s (s.ret rc) := by
  rintro (hsucceeds | ⟨-, hnone, -⟩)
  · rw [succeeds_ret] at hsucceeds
    exact hrc (of_decide_eq_true hsucceeds)
  · cases hnone

/-- A call that yields with nothing left to do but return `NO_ERROR`. -/
theorem returnsNoError_yield {c : Node} (hc : s.processCurrent = some c) (t : Pcb) {k : Context}
    (hk : k = .sendBufferDone ∨ k = .displayBlackboard) : ReturnsNoError s (t.yieldToPartition c.data k) := by
  refine Or.inr ⟨rfl, rfl, c, hc, fun u hu => ?_⟩
  have hcontext : (u.proc c.data).context = k := by
    rw [hu]
    show (Function.update t.proc c.data _ c.data).context = k
    rw [Function.update_self]
  unfold resumeContext
  rw [hcontext]
  rcases hk with rfl | rfl
  · rfl
  · rfl

/-- All or nothing: where the call is judged, the message is accepted exactly when it is to be, and a call that
    does not return `NO_ERROR` changes nothing. -/
structure AllOrNothing (s : Pcb) (o : Outcome) (judged admitted : Prop) : Prop where
  admits : judged → (ReturnsNoError s o ↔ admitted)
  unchanged : ¬ ReturnsNoError s o → o.1 = s

theorem AllOrNothing.refused {rc : ReturnCode} {judged admitted : Prop} (hrc : rc ≠ .noError)
    (hnot : judged → ¬ admitted) : AllOrNothing s (s.ret rc) judged admitted :=
  ⟨fun hjudged => iff_of_false (refused_unchanged hrc) (hnot hjudged), fun _ => rfl⟩

theorem AllOrNothing.accepted {o : Outcome} {judged admitted : Prop} (ho : ReturnsNoError s o)
    (hyes : admitted) : AllOrNothing s o judged admitted :=
  ⟨fun _ => iff_of_true ho hyes, fun h => absurd ho h⟩

/-- A check of the length. -/
theorem AllOrNothing.check {c : Prop} [Decidable c] {rc : ReturnCode} {o : Outcome} {judged admitted : Prop}
    (hrc : rc ≠ .noError) (hnot : judged → c → ¬ admitted) (ho : ¬ c → AllOrNothing s o judged admitted) :
    AllOrNothing s (if c then s.ret rc else o) judged admitted := by
  by_cases hc : c
  · rw [if_pos hc]
    exact .refused hrc fun hjudged => hnot hjudged hc
  · rw [if_neg hc]
    exact ho hc

/-- The outcome of a send that names resource `i`. -/
abbrev Judged (s : Pcb) (i : Nat) (send : Send) (o : Outcome) : Prop :=
  AllOrNothing s o (¬ send.AtLimit s i)
    ((1 ≤ send.length ∧ send.length ≤ send.maxMessageSize s i) ∧ send.HasRoom s i ∧ ¬ send.Queued s i)

theorem sendBuffer_judged (hserved : ReadersServed s) (huptime : s.krnl.uptime ≤ maxUptime)
    (hcurrent : s.processCurrent.isSome) {bufferId : Int} (hi : s.findBufferById bufferId = some i)
    (messageAddr : Area) (length : Int) :
    Judged s i (.sendBuffer bufferId messageAddr length) (s.sendBuffer bufferId messageAddr length 0) := by
  obtain ⟨node, hnode⟩ := Option.isSome_iff_exists.mp hcurrent
  unfold sendBuffer
  rw [hi]
  dsimp only
  refine .check (by decide) (fun hlimit hle h => hlimit (le_antisymm h.1.2 hle)) fun hfits => ?_
  refine .check (by decide) (fun _ hle h => absurd h.1.1 (by simp only [Send.length]; omega)) fun hpos => ?_
  rw [timeOutInvalid_zero huptime, if_neg Bool.false_ne_true]
  unfold withCurrent
  rw [hnode]
  dsimp only
  have hlength : 1 ≤ length ∧ length ≤ (s.res.buffers i).maxMessageSize := ⟨by omega, by omega⟩
  by_cases hroom : (s.res.buffers i).nbMessage < (s.res.buffers i).maxNbMessage
  · rw [if_pos hroom]
    split
    · exact .accepted (Or.inl rfl) ⟨hlength, Or.inl hroom, id⟩
    · exact .accepted (returnsNoError_yield hnode _ (Or.inl rfl)) ⟨hlength, Or.inl hroom, id⟩
  · rw [if_neg hroom, if_pos rfl]
    refine .refused (by decide) fun _ h => ?_
    -- a reader that waits means the buffer is empty
    rcases h.2.1 with hfree | hreaders
    · exact hroom hfree
    · have hcapacity := hserved.capacity i (findIndex_eq_some hi).1
      exact hreaders (hserved.nobody i (by omega))

theorem sendQueuingMessage_judged (huptime : s.krnl.uptime ≤ maxUptime) (hcurrent : s.processCurrent.isSome)
    {queuingPortId : Int} (hi : s.findQueuingPortById queuingPortId = some i)
    (hsource : (s.res.queuingPorts i).portDirection = .source) (hchannel : (s.res.queuingPorts i).channel ≠ none)
    (messageAddr : Area) (length : Int) :
    Judged s i (.sendQueuingMessage queuingPortId messageAddr length)
      (s.sendQueuingMessage queuingPortId messageAddr length 0) := by
  obtain ⟨node, hnode⟩ := Option.isSome_iff_exists.mp hcurrent
  obtain ⟨c, hc⟩ := Option.ne_none_iff_exists'.mp hchannel
  unfold sendQueuingMessage
  rw [hi]
  dsimp only
  rw [timeOutInvalid_zero huptime, if_neg Bool.false_ne_true]
  refine .check (by decide) (fun hlimit hle h => hlimit (le_antisymm h.1.2 hle)) fun hfits => ?_
  refine .check (by decide) (fun _ hle h => absurd h.1.1 (by simp only [Send.length]; omega)) fun hpos => ?_
  rw [if_neg (not_not.mpr hsource)]
  unfold withCurrent
  rw [hnode, hc]
  dsimp only
  have hlength : 1 ≤ length ∧ length ≤ (s.res.queuingPorts i).maxMessageSize := ⟨by omega, by omega⟩
  by_cases hroom : (s.krnl.queuingChannels c).currentNbMessages < (s.krnl.queuingChannels c).maxNbMessages
      ∧ s.waitingProcesses (.queuingPort i) = []
  · rw [if_pos hroom]
    refine .accepted (Or.inl rfl) ⟨hlength, fun c' hc' => ?_, not_not.mpr hroom.2⟩
    obtain rfl := Option.some.inj (hc.symm.trans hc')
    exact hroom.1
  · rw [if_neg hroom, if_pos rfl]
    exact .refused (by decide) fun _ h => hroom ⟨h.2.1 c hc, not_not.mp h.2.2⟩

theorem displayBlackboard_judged (hcurrent : 0 < s.waitingCount (.blackboard, i) → s.processCurrent.isSome)
    {blackboardId : Int} (hi : s.findBlackboardById blackboardId = some i) (messageAddr : Area) (length : Int) :
    Judged s i (.displayBlackboard blackboardId messageAddr length)
      (s.displayBlackboard blackboardId messageAddr length) := by
  unfold displayBlackboard
  rw [hi]
  dsimp only
  refine .check (by decide) (fun _ hlt h => absurd h.1.2 (not_le.mpr hlt)) fun hfits => ?_
  refine .check (by decide) (fun _ hle h => absurd h.1.1 (by simp only [Send.length]; omega)) fun hpos => ?_
  have hlength : 1 ≤ length ∧ length ≤ (s.res.blackboards i).maxMessageSize := ⟨by omega, by omega⟩
  by_cases hwaits : 0 < s.waitingCount (.blackboard, i)
  · obtain ⟨node, hnode⟩ := Option.isSome_iff_exists.mp (hcurrent hwaits)
    rw [if_pos (decide_eq_true hwaits)]
    unfold withCurrent
    rw [(wakeAll_caller _ _).1]
    dsimp only [setBlackboard]
    rw [hnode]
    exact .accepted (returnsNoError_yield hnode _ (Or.inr rfl)) ⟨hlength, trivial, id⟩
  · rw [if_neg (by rw [decide_eq_false hwaits]; exact Bool.false_ne_true)]
    exact .accepted (Or.inl rfl) ⟨hlength, trivial, id⟩

theorem writeSamplingMessage_judged {samplingPortId : Int} (hi : s.findSamplingPortById samplingPortId = some i)
    (hsource : (s.res.samplingPorts i).portDirection = .source)
    (hchannel : (s.res.samplingPorts i).channel ≠ none) (messageAddr : Area) (length : Int) :
    Judged s i (.writeSamplingMessage samplingPortId messageAddr length)
      (s.writeSamplingMessage samplingPortId messageAddr length) := by
  obtain ⟨c, hc⟩ := Option.ne_none_iff_exists'.mp hchannel
  unfold writeSamplingMessage
  rw [hi]
  dsimp only
  refine .check (by decide) (fun _ hlt h => absurd h.1.2 (not_le.mpr hlt)) fun hfits => ?_
  refine .check (by decide) (fun _ hle h => absurd h.1.1 (by simp only [Send.length]; omega)) fun hpos => ?_
  rw [if_neg (not_not.mpr hsource), hc]
  exact .accepted (Or.inl rfl) ⟨⟨by simp only [Send.length]; omega, not_lt.mp hfits⟩, trivial, id⟩

/-- In every state a partition reaches, a send that does not block returns `NO_ERROR` exactly when its length is
    one the resource admits, there is room or a reader waits, and it overtakes nobody; otherwise it leaves
    everything as it was. Not judged are a length of `MAX_MESSAGE_SIZE` for a buffer or a queuing port, and a call
    that follows `process_current` where there is no current process. -/
theorem send_all_or_nothing (period identifier : Int) (conf : PartitionConf) (maxErrors : Nat) (krnl : Krnl)
    (memory : Nat → Process) (lastTick : Nat) {es : List Action}
    (hrun : Transition.run Pcb.step
      (partitionInit period identifier conf maxErrors krnl memory lastTick).startPartitionOs es = some s)
    (huptime : s.krnl.uptime ≤ maxUptime) (send : Send) (hnames : send.Names s i)
    (hcurrent : send.FollowsCurrent s i → s.processCurrent.isSome) :
    (¬ send.AtLimit s i → (ReturnsNoError s (s.exec send.service)
      ↔ (1 ≤ send.length ∧ send.length ≤ send.maxMessageSize s i)
        ∧ send.HasRoom s i ∧ ¬ send.Queued s i))
    ∧ (¬ ReturnsNoError s (s.exec send.service) → (s.exec send.service).1 = s) := by
  have hserved := readersServed_of_run period identifier conf maxErrors krnl memory lastTick hrun
  have hjudged : Judged s i send (s.exec send.service) := by
    cases send with
    | sendBuffer bufferId messageAddr length =>
        exact sendBuffer_judged hserved huptime (hcurrent trivial) hnames messageAddr length
    | sendQueuingMessage queuingPortId messageAddr length =>
        exact sendQueuingMessage_judged huptime (hcurrent trivial) hnames.1 hnames.2.1 hnames.2.2 messageAddr length
    | displayBlackboard blackboardId messageAddr length =>
        exact displayBlackboard_judged hcurrent hnames messageAddr length
    | writeSamplingMessage samplingPortId messageAddr length =>
        exact writeSamplingMessage_judged hnames.1 hnames.2.1 hnames.2.2 messageAddr length
  exact ⟨hjudged.admits, hjudged.unchanged⟩

/-- A process sends to a buffer with room for four messages of less than 16 bytes. -/
def bufferSender : List Action :=
  [.loop, .call (.createBuffer "B".toList 16 4 0), .call (.createProcess (aperiodicProcess "A".toList 50)),
    .call (.start 1), .call (.setPartitionMode 3), .loop]

theorem send_all_or_nothing_buffer : ∃ s, Transition.run Pcb.step (defaultPartition 1) bufferSender = some s
    ∧ ReturnsNoError s (s.exec (Send.sendBuffer 1 (fun _ => 7) 15).service) := by
  have hrun : ((Transition.run Pcb.step (defaultPartition 1) bufferSender).map fun s =>
      (s.krnl.uptime, s.findBufferById 1, s.processCurrent.isSome, (s.res.buffers 0).maxMessageSize,
        decide ((s.res.buffers 0).nbMessage < (s.res.buffers 0).maxNbMessage)))
      = some (0, some 0, true, 16, true) := by decide
  obtain ⟨s, hs, hfields⟩ := Option.map_eq_some_iff.mp hrun
  simp only [Prod.mk.injEq, decide_eq_true_eq] at hfields
  obtain ⟨huptime, hnames, hcurrent, hsize, hroom⟩ := hfields
  refine ⟨s, hs, ?_⟩
  have hjudged := send_all_or_nothing 50 1 defaultPartitionConf 10 defaultKrnl (fun _ => zeroProcess) 0 hs
    (by rw [huptime]; exact Nat.zero_le _) (.sendBuffer 1 (fun _ => 7) 15) hnames (fun _ => hcurrent)
  have hlimit : ¬ (Send.sendBuffer 1 (fun _ => 7) 15).AtLimit s 0 := by
    show ¬ (15 : Int) = (s.res.buffers 0).maxMessageSize
    rw [hsize]
    decide
  refine (hjudged.1 hlimit).mpr ⟨⟨by decide, ?_⟩, Or.inl hroom, id⟩
  show (15 : Int) ≤ (s.res.buffers 0).maxMessageSize
  rw [hsize]
  decide

/-- Process `A` waits to send to a full channel, then the other partition takes all the messages, and process `B`
    executes. -/
def senderQueued : List Action :=
  [.loop, .call (.createQueuingPort "P2_OUT_CMDS".toList 32 10 0 0),
    .call (.createProcess (aperiodicProcess "A".toList 50)), .call (.createProcess (aperiodicProcess "B".toList 40)),
    .call (.start 1), .call (.start 2), .call (.setPartitionMode 3), fullAt 10 1, .loop,
    .call (.sendQueuingMessage 1 (fun _ => 7) 1 (-1)), clockAt 20 2, .loop]

/-- The channel is empty, and still `B` cannot send a message without waiting. -/
theorem queued_sender_refuses : ¬ ∀ (es : List Action) (s : Pcb) (send : Send) (i : Nat),
    Transition.run Pcb.step (defaultPartition 2) es = some s → s.krnl.uptime ≤ maxUptime → send.Names s i →
      s.processCurrent.isSome → (ReturnsNoError s (s.exec send.service)
        ↔ (1 ≤ send.length ∧ send.length ≤ send.maxMessageSize s i) ∧ send.HasRoom s i) := by
  intro hall
  have hrun : ((Transition.run Pcb.step (defaultPartition 2) senderQueued).map fun s =>
      (s.krnl.uptime, s.findQueuingPortById 1, s.processCurrent.isSome,
        (s.sendQueuingMessage 1 (fun _ => 7) 1 0).2.map Result.returnCode))
      = some (20, some 0, true, some .notAvailable) := by decide
  have hport : ((Transition.run Pcb.step (defaultPartition 2) senderQueued).map fun s =>
      ((s.res.queuingPorts 0).portDirection, (s.res.queuingPorts 0).channel, (s.res.queuingPorts 0).maxMessageSize,
        decide ((s.krnl.queuingChannels 0).currentNbMessages < (s.krnl.queuingChannels 0).maxNbMessages)))
      = some (.source, some 0, 32, true) := by decide
  obtain ⟨s, hs, hfields⟩ := Option.map_eq_some_iff.mp hrun
  rw [hs, Option.map_some, Option.some.injEq] at hport
  simp only [Prod.mk.injEq, decide_eq_true_eq] at hfields hport
  obtain ⟨huptime, hfind, hcurrent, hrefused⟩ := hfields
  obtain ⟨hsource, hchannel, hsize, hroom⟩ := hport
  have hnames : Send.Names s 0 (.sendQueuingMessage 1 (fun _ => 7) 1) :=
    ⟨hfind, hsource, by rw [hchannel]; exact Option.some_ne_none _⟩
  have hreturns := (hall senderQueued s (.sendQueuingMessage 1 (fun _ => 7) 1) 0 hs
    (by rw [huptime]; decide) hnames hcurrent).mpr ⟨⟨by decide, ?_⟩, ?_⟩
  · obtain ⟨r, hr, hnotAvailable⟩ := Option.map_eq_some_iff.mp hrefused
    rcases hreturns with hsucceeds | ⟨-, hnone, -⟩
    · have hnoError := of_decide_eq_true hsucceeds
      rw [show (s.exec (Send.sendQueuingMessage 1 (fun _ => 7) 1).service).2 = some r from hr, Option.map_some,
        hnotAvailable] at hnoError
      cases hnoError
    · rw [show (s.exec (Send.sendQueuingMessage 1 (fun _ => 7) 1).service).2 = some r from hr] at hnone
      cases hnone
  · show (1 : Int) ≤ (s.res.queuingPorts 0).maxMessageSize
    rw [hsize]
    decide
  · intro c hc
    obtain rfl := Option.some.inj (hchannel.symm.trans hc)
    exact hroom

end Pcb

end UcxArinc
