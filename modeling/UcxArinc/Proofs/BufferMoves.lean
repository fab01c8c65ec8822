import UcxArinc.Library.MessageChannel
import UcxArinc.Library.RingBuffer
import UcxArinc.Proofs.SemaphoreTokens
import UcxArinc.Proofs.NonBlockingSends

set_option autoImplicit false

/-! # What a step does to the buffers

A step of a partition stores a message in a buffer, hands one to a reader, takes one out, takes one out and
stores the message of a writer in its place, lets a process wait, creates a buffer, or leaves the buffers
alone. Everything that is true of the buffers in every run rests on these seven cases. -/

namespace UcxArinc

namespace Pcb

variable {s s' t : Pcb} {i j p : Nat}

/-- What the buffers are stored in. -/
def bufferStore (s : Pcb) : (Nat → Buffer) × Nat × Area × (Nat → Nat) :=
  (s.res.buffers, s.res.bufferCount, s.res.buffersData, s.res.buffersSizeData)

theorem bufferStore_of_stores (h : s'.stores.buffers = s.stores.buffers) : s'.bufferStore = s.bufferStore :=
  congrArg (fun x => (x.1, x.2.1, x.2.2.1, x.2.2.2.1)) h

/-- The message process `p` waits with. -/
def waitingMessageOf (s : Pcb) (p : Nat) : List UInt8 :=
  (s.proc p).waitingMessage.bytes (s.proc p).waitingMessageSize.toNat

/-- What a call of `SEND_BUFFER` or `RECEIVE_BUFFER` that finds buffer `j` does to the buffers and to those who wait
    there. -/
inductive BufferMove (s : Pcb) (j : Nat) : MessageChannel.Event Nat (List UInt8) → Pcb → Prop
  | stored {t : Pcb} (messageAddr : Area) (length : Int) (hpos : 0 < length)
      (hfits : length < (s.res.buffers j).maxMessageSize)
      (hroom : (s.res.buffers j).nbMessage < (s.res.buffers j).maxNbMessage)
      (hnobody : s.waitingProcesses (.bufferReaders j) = [])
      (hstore : t.bufferStore = (s.storeMessage j messageAddr length).bufferStore)
      (hlists : t.waitingProcesses = s.waitingProcesses) :
      BufferMove s j (.stored (messageAddr.bytes length.toNat)) t
  | handed {t : Pcb} {reader : Nat} {rest : List Nat} (message : List UInt8)
      (hroom : (s.res.buffers j).nbMessage < (s.res.buffers j).maxNbMessage)
      (hfirst : s.waitingProcesses (.bufferReaders j) = reader :: rest) (hstore : t.bufferStore = s.bufferStore)
      (hlists : t.waitingProcesses = Function.update s.waitingProcesses (.bufferReaders j) rest) :
      BufferMove s j (.handed reader message) t
  | taken {t : Pcb} (p : Nat) (hsome : 0 < (s.res.buffers j).nbMessage)
      (hnobody : s.waitingProcesses (.bufferWriters j) = [])
      (hstore : t.bufferStore = (s.takeMessage j p).bufferStore) (hlists : t.waitingProcesses = s.waitingProcesses) :
      BufferMove s j (.taken (s.headMessage j)) t
  | exchanged {t : Pcb} {writer : Nat} {rest : List Nat} (p : Nat) (hsome : 0 < (s.res.buffers j).nbMessage)
      (hfirst : s.waitingProcesses (.bufferWriters j) = writer :: rest)
      (hstore : t.bufferStore = ((s.takeMessage j p).storeMessage j (s.proc writer).waitingMessage
        (s.proc writer).waitingMessageSize).bufferStore)
      (hlists : t.waitingProcesses = Function.update s.waitingProcesses (.bufferWriters j) rest) :
      BufferMove s j (.exchanged (s.headMessage j) writer (s.waitingMessageOf writer)) t
  | readerQueued {t : Pcb} {p : Nat} {front behind : List Nat} (hnone : (s.res.buffers j).nbMessage ≤ 0)
      (hreaders : s.waitingProcesses (.bufferReaders j) = front ++ behind) (hstore : t.bufferStore = s.bufferStore)
      (hlists : t.waitingProcesses
        = Function.update s.waitingProcesses (.bufferReaders j) (front ++ p :: behind)) :
      BufferMove s j (.readerQueued p) t
  | writerQueued {t : Pcb} {p : Nat} {front behind : List Nat}
      (hfull : (s.res.buffers j).maxNbMessage ≤ (s.res.buffers j).nbMessage)
      (hwriters : s.waitingProcesses (.bufferWriters j) = front ++ behind) (hstore : t.bufferStore = s.bufferStore)
      (hlists : t.waitingProcesses
        = Function.update s.waitingProcesses (.bufferWriters j) (front ++ p :: behind)) :
      BufferMove s j (.writerQueued p) t
  | refused {t : Pcb} (hstore : t.bufferStore = s.bufferStore) (hlists : t.waitingProcesses = s.waitingProcesses) :
      BufferMove s j .other t

/-- What `SEND_BUFFER` to buffer `j` is for the channel, by whether the call returns and what. -/
def sendEvent (s : Pcb) (j : Nat) (messageAddr : Area) (length : Int) (o : Outcome) :
    MessageChannel.Event Nat (List UInt8) :=
  match o.2, s.processCurrent with
  | some r, _ => if r.returnCode = .noError then .stored (messageAddr.bytes length.toNat) else .other
  | none, none => .other
  | none, some node =>
    if (s.res.buffers j).nbMessage < (s.res.buffers j).maxNbMessage then
      match s.waitingProcesses (.bufferReaders j) with
      | reader :: _ => .handed reader (messageAddr.bytes length.toNat)
      | [] => .other
    else .writerQueued node.data

/-- What `RECEIVE_BUFFER` from buffer `j` is for the channel. -/
def receiveEvent (s : Pcb) (j : Nat) (o : Outcome) : MessageChannel.Event Nat (List UInt8) :=
  match o.2, s.processCurrent with
  | some r, _ => if r.returnCode = .noError then .taken (s.headMessage j) else .other
  | none, none => .other
  | none, some node =>
    if 0 < (s.res.buffers j).nbMessage then
      match s.waitingProcesses (.bufferWriters j) with
      | writer :: _ => .exchanged (s.headMessage j) writer (s.waitingMessageOf writer)
      | [] => .other
    else .readerQueued node.data

/-- A call that is refused. -/
theorem BufferMove.ret {rc : ReturnCode} {event : Outcome → MessageChannel.Event Nat (List UInt8)}
    (hevent : event (s.ret rc) = .other) : BufferMove s j (event (s.ret rc)) (s.ret rc).1 := by
  rw [hevent]
  exact .refused rfl rfl

/-- A process is queued somewhere in a list. -/
theorem blocked_lists (ht : t.waitingProcesses = s.waitingProcesses) (q : WaitList) (linked : Bool)
    (discipline : QueuingDiscipline) (timer : Option Int) (k : Context) :
    ∃ front behind, s.waitingProcesses q = front ++ behind
      ∧ ((t.waitOn p q linked discipline timer).yieldToPartition p k).1.waitingProcesses
        = Function.update s.waitingProcesses q (front ++ p :: behind) := by
  obtain ⟨front, behind, hwaiting, hinserted, -⟩ := insertedWaiters_split
    (t.modProc p (blockedRecord q linked timer)) q discipline p
  refine ⟨front, behind, ht ▸ hwaiting, ?_⟩
  rw [blocked_eq, hinserted, ht]

theorem blocked_bufferStore (ht : t.bufferStore = s.bufferStore) (q : WaitList) (linked : Bool)
    (discipline : QueuingDiscipline) (timer : Option Int) (k : Context) :
    ((t.waitOn p q linked discipline timer).yieldToPartition p k).1.bufferStore = s.bufferStore :=
  (bufferStore_of_stores (congrArg Stores.buffers (blocked_stores p q linked discipline timer k))).trans ht

/-- `SEND_BUFFER` stores its message, hands it to a reader, is refused or queues its caller. -/
theorem sendBuffer_move {bufferId : Int} {messageAddr : Area} {length timeOut : Int}
    (hj : s.findBufferById bufferId = some j) :
    BufferMove s j (s.sendEvent j messageAddr length (s.sendBuffer bufferId messageAddr length timeOut))
      (s.sendBuffer bufferId messageAddr length timeOut).1 := by
  have hret : ∀ rc, rc ≠ .noError → BufferMove s j (s.sendEvent j messageAddr length (s.ret rc)) (s.ret rc).1 :=
    fun rc hrc => .ret (if_neg hrc)
  unfold sendBuffer
  rw [hj]
  dsimp only
  refine refused_elim (P := fun o => BufferMove s j (s.sendEvent j messageAddr length o) o.1)
    (hret _ (by decide)) fun hlong => ?_
  refine refused_elim (P := fun o => BufferMove s j (s.sendEvent j messageAddr length o) o.1)
    (hret _ (by decide)) fun hshort => ?_
  refine refused_elim (P := fun o => BufferMove s j (s.sendEvent j messageAddr length o) o.1)
    (hret _ (by decide)) fun _ => ?_
  have hpos : 0 < length := by omega
  have hfits : length < (s.res.buffers j).maxMessageSize := by omega
  unfold withCurrent
  cases hcurrent : s.processCurrent with
  | none =>
      have hevent : s.sendEvent j messageAddr length s.crash = .other := by simp [sendEvent, crash, hcurrent]
      dsimp only
      rw [hevent]
      exact .refused rfl rfl
  | some node =>
      dsimp only
      by_cases hroom : (s.res.buffers j).nbMessage < (s.res.buffers j).maxNbMessage
      · rw [if_pos hroom]
        split
        · next hnone =>
            exact .stored messageAddr length hpos hfits hroom (wakeFirst_eq_none.mp hnone) rfl rfl
        · next reader t hwake =>
            obtain ⟨rest, hlist, ht⟩ := wakeFirst_eq_some hwake
            have hevent : ∀ o : Outcome, o.2 = none →
                s.sendEvent j messageAddr length o = .handed reader (messageAddr.bytes length.toNat) := by
              intro o ho
              simp [sendEvent, ho, hcurrent, hroom, hlist]
            rw [hevent _ rfl]
            have hstore : t.bufferStore = s.bufferStore :=
              bufferStore_of_stores (congrArg Stores.buffers (wakeFirst_stores hwake))
            exact .handed _ hroom hlist hstore (by rw [ht]; rfl)
      · rw [if_neg hroom]
        refine refused_elim (P := fun o => BufferMove s j (s.sendEvent j messageAddr length o) o.1)
          (hret _ (by decide)) fun _ => ?_
        refine refused_elim (P := fun o => BufferMove s j (s.sendEvent j messageAddr length o) o.1)
          (hret _ (by decide)) fun _ => ?_
        split
        all_goals
          have hevent : ∀ (u : Pcb) (k : Context),
              s.sendEvent j messageAddr length (u.yieldToPartition node.data k) = .writerQueued node.data := by
            intro u k
            simp [sendEvent, yieldToPartition, hcurrent, hroom]
          rw [hevent]
        · obtain ⟨front, behind, hwriters, hlists⟩ := blocked_lists (p := node.data) (s := s)
            (t := s.modProc node.data fun x => { x with
              waitingMessage := messageAddr
              waitingMessageSize := length }) rfl (.bufferWriters j) true (s.res.buffers j).queuingDiscipline none
            (.sendBuffer false)
          exact .writerQueued (not_lt.mp hroom) hwriters (blocked_bufferStore rfl _ _ _ _ _) hlists
        · obtain ⟨front, behind, hwriters, hlists⟩ := blocked_lists (p := node.data) (s := s)
            (t := s.modProc node.data fun x => { x with
              waitingMessage := messageAddr
              waitingMessageSize := length }) rfl (.bufferWriters j) true (s.res.buffers j).queuingDiscipline
            (some (s.fromNow timeOut)) (.sendBuffer true)
          exact .writerQueued (not_lt.mp hroom) hwriters (blocked_bufferStore rfl _ _ _ _ _) hlists

/-- `RECEIVE_BUFFER` takes a message out, and may let a writer store one, is refused or queues its caller. -/
theorem receiveBuffer_move {bufferId timeOut : Int} {messageAddr : Area} (hj : s.findBufferById bufferId = some j) :
    BufferMove s j (s.receiveEvent j (s.receiveBuffer bufferId timeOut messageAddr))
      (s.receiveBuffer bufferId timeOut messageAddr).1 := by
  have hret : ∀ rc, rc ≠ .noError → BufferMove s j (s.receiveEvent j (s.ret rc)) (s.ret rc).1 :=
    fun rc hrc => .ret (if_neg hrc)
  unfold receiveBuffer
  rw [hj]
  dsimp only
  refine refused_elim (P := fun o => BufferMove s j (s.receiveEvent j o) o.1) (hret _ (by decide)) fun _ => ?_
  unfold withCurrent
  cases hcurrent : s.processCurrent with
  | none =>
      have hevent : s.receiveEvent j s.crash = .other := by simp [receiveEvent, crash, hcurrent]
      dsimp only
      rw [hevent]
      exact .refused rfl rfl
  | some node =>
      dsimp only
      by_cases hsome : 0 < (s.res.buffers j).nbMessage
      · rw [if_pos hsome]
        split
        · next hnone =>
            exact .taken node.data hsome (wakeFirst_eq_none (s := s.takeMessage j node.data).mp hnone) rfl rfl
        · next writer t hwake =>
            obtain ⟨rest, hlist, ht⟩ := wakeFirst_eq_some hwake
            have hfirst : s.waitingProcesses (.bufferWriters j) = writer :: rest := hlist
            have hmessage : (t.proc writer).waitingMessage = (s.proc writer).waitingMessage
                ∧ (t.proc writer).waitingMessageSize = (s.proc writer).waitingMessageSize := by
              rw [wakeFirst_proc hwake, if_pos rfl]
              exact ⟨rfl, rfl⟩
            have hevent : ∀ o : Outcome, o.2 = none → s.receiveEvent j o
                = .exchanged (s.headMessage j) writer (s.waitingMessageOf writer) := by
              intro o ho
              simp [receiveEvent, ho, hcurrent, hsome, hfirst]
            rw [hevent _ rfl]
            refine .exchanged node.data hsome hfirst ?_ ?_
            · rw [← hmessage.1, ← hmessage.2]
              subst ht
              rfl
            · rw [ht]
              rfl
      · rw [if_neg hsome]
        refine refused_elim (P := fun o => BufferMove s j (s.receiveEvent j o) o.1) (hret _ (by decide)) fun _ => ?_
        refine refused_elim (P := fun o => BufferMove s j (s.receiveEvent j o) o.1) (hret _ (by decide)) fun _ => ?_
        split
        all_goals
          have hevent : ∀ (u : Pcb) (k : Context),
              s.receiveEvent j (u.yieldToPartition node.data k) = .readerQueued node.data := by
            intro u k
            simp [receiveEvent, yieldToPartition, hcurrent, hsome]
          rw [hevent]
        · obtain ⟨front, behind, hreaders, hlists⟩ := blocked_lists (p := node.data) (s := s)
            (t := s.modProc node.data fun x => { x with waitingMessage := messageAddr }) rfl (.bufferReaders j) true
            (s.res.buffers j).queuingDiscipline none (.receiveBuffer j false)
          exact .readerQueued (not_lt.mp hsome) hreaders (blocked_bufferStore rfl _ _ _ _ _) hlists
        · obtain ⟨front, behind, hreaders, hlists⟩ := blocked_lists (p := node.data) (s := s)
            (t := s.modProc node.data fun x => { x with waitingMessage := messageAddr }) rfl (.bufferReaders j) true
            (s.res.buffers j).queuingDiscipline (some (s.fromNow timeOut)) (.receiveBuffer j true)
          exact .readerQueued (not_lt.mp hsome) hreaders (blocked_bufferStore rfl _ _ _ _ _) hlists

/-! ## Steps -/

/-- A buffer of `maxNbMessage` messages of `maxMessageSize` bytes has been created after the others. -/
structure BufferCreated (maxMessageSize maxNbMessage : Int) (s s' : Pcb) : Prop where
  room : s.res.bufferCount + 1 ≤ s.conf.maxBuffers
  size_pos : 0 < maxMessageSize
  number_pos : 0 < maxNbMessage
  fits : i32 (maxMessageSize * maxNbMessage) ≤ s.conf.maxBufferDataSize
  count : s'.res.bufferCount = s.res.bufferCount + 1
  record : ∃ name bufferId discipline, s'.res.buffers = Function.update s.res.buffers s.res.bufferCount
    { bufferName := name, bufferId := bufferId, nbMessage := 0, maxNbMessage := maxNbMessage,
      maxMessageSize := maxMessageSize, queuingDiscipline := discipline, readIndex := 0, writeIndex := 0 }
  data : s'.res.buffersData = s.res.buffersData
  sizes : s'.res.buffersSizeData = s.res.buffersSizeData
  lists : s'.waitingProcesses = Function.update (Function.update s.waitingProcesses
    (.bufferReaders s.res.bufferCount) []) (.bufferWriters s.res.bufferCount) []

theorem createBuffer_created (name : Name) (maxMessageSize maxNbMessage discipline : Int) :
    (s.createBuffer name maxMessageSize maxNbMessage discipline).1 = s
      ∨ BufferCreated maxMessageSize maxNbMessage s
        (s.createBuffer name maxMessageSize maxNbMessage discipline).1 := by
  unfold createBuffer
  refine refused_elim (P := fun o => o.1 = s ∨ BufferCreated maxMessageSize maxNbMessage s o.1) (Or.inl rfl)
    fun hroom => ?_
  refine refused_elim (P := fun o => o.1 = s ∨ BufferCreated maxMessageSize maxNbMessage s o.1) (Or.inl rfl)
    fun _ => ?_
  refine refused_elim (P := fun o => o.1 = s ∨ BufferCreated maxMessageSize maxNbMessage s o.1) (Or.inl rfl)
    fun hsize => ?_
  refine refused_elim (P := fun o => o.1 = s ∨ BufferCreated maxMessageSize maxNbMessage s o.1) (Or.inl rfl)
    fun hnumber => ?_
  split
  · exact Or.inl rfl
  · next discipline _ =>
      refine refused_elim (P := fun o => o.1 = s ∨ BufferCreated maxMessageSize maxNbMessage s o.1) (Or.inl rfl)
        fun _ => ?_
      simp only [not_or, not_lt] at hroom
      refine Or.inr ⟨hroom.1, not_le.mp hsize, not_le.mp hnumber, hroom.2, rfl, ⟨_, _, _, rfl⟩, rfl, rfl, ?_⟩
      simp only [freshWaitList_eq]
      rfl

/-- A call of `SEND_BUFFER` or `RECEIVE_BUFFER` that finds buffer `j`. -/
def UsesBuffer (s : Pcb) (j : Nat) : Action → Prop
  | .call (.sendBuffer bufferId _ _ _) | .call (.receiveBuffer bufferId _ _) => s.findBufferById bufferId = some j
  | _ => False

/-- What an action is for the channel of buffer `i`. -/
def bufferEvent (i : Nat) (s : Pcb) : Action → MessageChannel.Event Nat (List UInt8)
  | .call (.sendBuffer bufferId messageAddr length timeOut) =>
    if s.findBufferById bufferId = some i then
      s.sendEvent i messageAddr length (s.sendBuffer bufferId messageAddr length timeOut)
    else .other
  | .call (.receiveBuffer bufferId timeOut messageAddr) =>
    if s.findBufferById bufferId = some i then
      s.receiveEvent i (s.receiveBuffer bufferId timeOut messageAddr)
    else .other
  | _ => .other

theorem bufferEvent_other {e : Action} (hnot : ¬ UsesBuffer s i e) : bufferEvent i s e = .other := by
  unfold bufferEvent
  split
  · exact if_neg hnot
  · exact if_neg hnot
  · rfl

/-- Everything a step can do to the buffers. -/
inductive BuffersStep (s : Pcb) (e : Action) (s' : Pcb) : Prop
  | moved (j : Nat) (huses : UsesBuffer s j e) (hj : j < s.res.bufferCount)
      (hmove : BufferMove s j (bufferEvent j s e) s')
  | created (name : Name) (maxMessageSize maxNbMessage discipline : Int)
      (hcall : e = .call (.createBuffer name maxMessageSize maxNbMessage discipline))
      (hnew : BufferCreated maxMessageSize maxNbMessage s s')
  | kept (hnot : ∀ j, ¬ UsesBuffer s j e) (hstore : s'.bufferStore = s.bufferStore)
      (hreaders : ∀ i, (s'.waitingProcesses (.bufferReaders i)).Sublist (s.waitingProcesses (.bufferReaders i)))
      (hwriters : ∀ i, (s'.waitingProcesses (.bufferWriters i)).Sublist (s.waitingProcesses (.bufferWriters i)))

/-- The rest of a service leaves the buffers alone. -/
theorem resumeContext_bufferStore (s : Pcb) (p : Nat) : (s.resumeContext p).1.bufferStore = s.bufferStore := by
  have hstores := resumeContext_stores s p
  cases hk : (s.proc p).context with
  | receiveBufferDone index message length =>
      unfold resumeContext
      rw [hk]
      rfl
  | receiveBuffer index timed =>
      unfold resumeContext
      rw [hk]
      dsimp only
      split
      · rfl
      · rfl
  | _ =>
      rw [hk] at hstores
      have hbuffers := congrArg Stores.buffers hstores
      exact bufferStore_of_stores hbuffers

theorem loop_bufferStore (s : Pcb) : s.partitionOsLoop.1.bufferStore = s.bufferStore := by
  have hloop := partitionOsLoop_stores s
  cases hresumed : s.resumedContext with
  | none =>
      rw [hresumed] at hloop
      exact bufferStore_of_stores (congrArg Stores.buffers hloop)
  | some k =>
      obtain ⟨node, -, -, hresume⟩ := resumedContext_eq_some hresumed
      rw [hresume]
      exact (resumeContext_bufferStore { s.dispatched with ctl := .process } node.data).trans
        (bufferStore_of_stores (congrArg Stores.buffers (dispatched_stores s)))

/-- A step that uses no buffer lets nobody join a list of one. -/
theorem sublist_of_unused {e : Action} (hsound : Sound s) (hnot : ∀ j, ¬ UsesBuffer s j e)
    (hstep : s.step e = some s') :
    (s'.waitingProcesses (.bufferReaders i)).Sublist (s.waitingProcesses (.bufferReaders i))
      ∧ (s'.waitingProcesses (.bufferWriters i)).Sublist (s.waitingProcesses (.bufferWriters i)) := by
  constructor
  all_goals
    refine sublist_of_moves (step_moves hsound.running (permits_onlyBlocks ?_) hstep)
    rintro service rfl c - t - q hblocks - rfl
    cases service with
    | sendBuffer | receiveBuffer =>
        obtain ⟨-, j, hj, -⟩ := hblocks
        exact hnot j hj
    | _ => simp [Blocks] at hblocks

/-- Every step is one of these. -/
theorem step_buffers {e : Action} (hsound : Sound s) (hstep : s.step e = some s') : BuffersStep s e s' := by
  have hstores := congrArg Stores.buffers (step_stores hstep)
  have hkept : (∀ j, ¬ UsesBuffer s j e) → s'.bufferStore = s.bufferStore → BuffersStep s e s' := fun hnot hstore =>
    .kept hnot hstore (fun _ => (sublist_of_unused hsound hnot hstep).1) fun _ =>
      (sublist_of_unused hsound hnot hstep).2
  cases e with
  | call service =>
      obtain ⟨-, rfl⟩ := call_eq_some hstep
      cases service with
      | createBuffer name size number discipline =>
          rcases createBuffer_created (s := s) name size number discipline with hsame | hnew
          · exact hkept (fun _ => id) (congrArg bufferStore hsame)
          · exact .created name size number discipline rfl hnew
      | sendBuffer bufferId messageAddr length timeOut =>
          cases hj : s.findBufferById bufferId with
          | none =>
              have hsame : s.sendBuffer bufferId messageAddr length timeOut = s.ret .invalidParam := by
                unfold sendBuffer
                rw [hj]
              refine hkept (fun j huses => ?_) (congrArg (fun o => o.1.bufferStore) hsame)
              have hfound : s.findBufferById bufferId = some j := huses
              rw [hj] at hfound
              cases hfound
          | some j =>
              refine .moved j hj (findIndex_eq_some hj).1 ?_
              rw [bufferEvent, if_pos hj]
              exact sendBuffer_move hj
      | receiveBuffer bufferId timeOut messageAddr =>
          cases hj : s.findBufferById bufferId with
          | none =>
              have hsame : s.receiveBuffer bufferId timeOut messageAddr = s.ret .invalidParam := by
                unfold receiveBuffer
                rw [hj]
              refine hkept (fun j huses => ?_) (congrArg (fun o => o.1.bufferStore) hsame)
              have hfound : s.findBufferById bufferId = some j := huses
              rw [hj] at hfound
              cases hfound
          | some j =>
              refine .moved j hj (findIndex_eq_some hj).1 ?_
              rw [bufferEvent, if_pos hj]
              exact receiveBuffer_move hj
      | _ => exact hkept (fun _ => id) (bufferStore_of_stores hstores)
  | loop =>
      obtain ⟨-, rfl⟩ := loop_eq_some hstep
      exact hkept (fun _ => id) (loop_bufferStore s)
  | _ => exact hkept (fun _ => id) (bufferStore_of_stores hstores)

end Pcb

end UcxArinc
